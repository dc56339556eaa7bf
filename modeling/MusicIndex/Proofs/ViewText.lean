import MusicIndex.Proofs.CoBinding
import MusicIndex.Proofs.DotText
import MusicIndex.Proofs.NaturalKey
import MusicIndex.Proofs.RecordFields
import MusicIndex.View.Text

namespace MusicIndex

def breaks (s : String) : Nat :=
  s.toList.count '\n'

/-- A line has as many line breaks as some texts have together. -/
def BreaksWith (line : String) (texts : List String) : Prop :=
  breaks line = (texts.map breaks).sum

def Identifier.parts (i : Identifier) : List String :=
  [i.scheme, i.value]

def FieldValue.entries (f : FieldValue) : List (List String) :=
  [f.column, f.merged.value] :: f.merged.sources.map fun c => [c.source]

def Alias.entries (looked : StoredIdentifier) (aliases : List Alias) : List (List String) :=
  match aliases.filter (·.identifier.id != looked.id) with
  | [] => []
  | others => [] :: others.map fun a => a.identifier.identifier.parts ++ a.sources

def Neighbour.entries {V : Type} (n : Neighbour V) : List (List String) :=
  (n.link.role.toList ++ n.identifier.identifier.parts ++ [n.source]) ::
    n.link.shares.toList.map fun _ => []

namespace EntityView

mutual
def entries : EntityView → List (List String)
  | .mk _ identifier fields aliases neighbours =>
    (identifier.identifier.parts ++ [MusicIndex.label fields]) ::
      fields.flatMap FieldValue.entries ++ Alias.entries identifier aliases ++
      neighbourEntries neighbours

def neighbourEntries : List (Neighbour EntityView) → List (List String)
  | [] => []
  | ⟨kind, direction, link, source, view⟩ :: rest =>
    Neighbour.entries (V := Unit) ⟨kind, direction, link, source, none⟩ ++ nestedEntries view ++
      neighbourEntries rest

def nestedEntries : Option EntityView → List (List String)
  | none => []
  | some view => entries view
end

end EntityView

/-- A text that stands in a table of an index. -/
inductive Index.Holds (x : Index) : String → Prop where
  | source {name : String} : name ∈ x.sources.contents → Holds x name
  | scheme {i : Identifier} : i ∈ x.identifiers.contents → Holds x i.scheme
  | value {i : Identifier} : i ∈ x.identifiers.contents → Holds x i.value
  | record {kind : RecordKind} {c : RecordClaim} {s : String} :
    c ∈ (x.records kind).contents → s ∈ c.values → Holds x s
  | role {kind : LinkKind} {c : LinkClaim} : c ∈ (x.links kind).contents → Holds x c.role

/-- No text in the tables of an index has a line break. -/
def Index.Unbroken (x : Index) : Prop :=
  ∀ s, x.Holds s → breaks s = 0

section Breaks

theorem breaks_eq_zero {s : String} : breaks s = 0 ↔ '\n' ∉ s.toList :=
  List.count_eq_zero

theorem breaks_append (s t : String) : breaks (s ++ t) = breaks s + breaks t := by
  rw [breaks, String.toList_append, List.count_append, breaks, breaks]

theorem count_newline_intercalate {separator : List Char} (h : separator.count '\n' = 0)
    (texts : List String) :
    (separator.intercalate (texts.map String.toList)).count '\n' = (texts.map breaks).sum := by
  induction texts with
  | nil => rfl
  | cons s texts ih =>
    cases texts with
    | nil => simp [breaks]
    | cons t texts =>
      rw [List.map_cons, List.map_cons, List.intercalate_cons_cons, ← List.map_cons,
        List.count_append, List.count_append, h, ih, Nat.add_zero]
      rfl

theorem length_linesOf (s : String) : (Graph.linesOf s).length = breaks s + 1 := by
  rw [Graph.linesOf, List.length_map, breaks]
  induction s.toList with
  | nil => rfl
  | cons c cs ih =>
    rw [List.splitOn_cons_eq_if_modifyHead, List.count_cons]
    split
    · rw [List.length_cons, ih]
    · rw [List.length_modifyHead, ih, Nat.add_zero]

theorem linesOf_intercalate {texts : List String} (htexts : texts ≠ []) :
    Graph.linesOf ("\n".intercalate texts) = texts.flatMap Graph.linesOf := by
  induction texts with
  | nil => exact absurd rfl htexts
  | cons s texts ih =>
    cases texts with
    | nil => simp
    | cons t texts =>
      rw [String.intercalate_cons_cons, Graph.linesOf_append_newline, ih (List.cons_ne_nil _ _)]
      exact List.flatMap_cons.symm

theorem Text.newline_not_mem_quoteChar (c : Char) : '\n' ∉ quoteChar c := by
  unfold quoteChar
  split
  case h_7 hbreak _ _ =>
    split
    · have hnumber := Graph.newline_not_mem_toDigits (by omega) (le_refl 16) c.toNat
      simp only [numberEscape, List.mem_append, hnumber]
      decide
    · exact fun h => hbreak (List.mem_singleton.mp h).symm
  all_goals decide

@[simp]
theorem count_newline_quoted (s : String) : (Text.quoted s).toList.count '\n' = 0 := by
  rw [List.count_eq_zero, Text.quoted, String.toList_ofList]
  simp [Text.newline_not_mem_quoteChar]

@[simp]
theorem count_newline_toDigits (n : Nat) : (Nat.toDigits 10 n).count '\n' = 0 :=
  List.count_eq_zero.mpr (Graph.newline_not_mem_toDigits (by omega) (by omega) n)

@[simp]
theorem count_newline_recordKind (kind : RecordKind) : kind.name.toList.count '\n' = 0 := by
  cases kind <;> decide +kernel

@[simp]
theorem count_newline_linkKind (kind : LinkKind) : kind.name.toList.count '\n' = 0 := by
  simp [LinkKind.name]

theorem newline_not_mem_positional {digits : String} (h : '\n' ∉ digits.toList) (point : Int) :
    '\n' ∉ (Decimal.positional "" digits point).toList := by
  have htake (n : Nat) : '\n' ∉ digits.toList.take n := fun hmem => h (List.mem_of_mem_take hmem)
  have hdrop (n : Nat) : '\n' ∉ digits.toList.drop n := fun hmem => h (List.mem_of_mem_drop hmem)
  unfold Decimal.positional
  dsimp only
  split
  · simp [h]
  · split
    · simp [h]
    · simp [htake, hdrop]

/-- A share is written without an exponent. -/
theorem newline_not_mem_text (x : Binary64) : '\n' ∉ x.text.toList := by
  have hdigits (n : Nat) : '\n' ∉ (toString n).toList := by
    rw [← List.count_eq_zero]
    simp
  have hbody : '\n' ∉ (if x.isZero then "0" ++ "" else
      Decimal.Layout.plain.magnitude x.magnitude).toList := by
    split
    · decide
    · exact newline_not_mem_positional (hdigits _) _
  unfold Binary64.text Decimal.Layout.text
  dsimp only
  split
  · rw [String.toList_append, List.mem_append, not_or]
    exact ⟨by decide, hbody⟩
  · exact hbody

@[simp]
theorem count_newline_shareText (share : Option Binary64) :
    (shareText share).toList.count '\n' = 0 := by
  cases share with
  | none => rfl
  | some x => simp [shareText, List.count_eq_zero.mpr (newline_not_mem_text x)]

@[simp]
theorem count_newline_roleText (role : Option String) :
    (roleText role).toList.count '\n' = (role.toList.map breaks).sum := by
  cases role with
  | none => rfl
  | some role => simp [roleText, breaks, toString]

end Breaks

section Lines

variable {pad : String} (hpad : pad.toList.count '\n' = 0)

include hpad

theorem FieldValue.breaks_lines (f : FieldValue) :
    List.Forall₂ BreaksWith (f.lines pad) f.entries := by
  rw [lines, entries]
  refine .cons ?_ ?_
  · simp [BreaksWith, breaks, toString, hpad]
  · match f.merged.sources with
    | [] => exact .nil
    | [c] => simp [BreaksWith, breaks, toString, hpad]
    | c :: d :: rest =>
      rw [List.forall₂_map_left_iff, List.forall₂_map_right_iff, List.forall₂_same]
      intro c _
      simp [BreaksWith, breaks, toString, hpad]

theorem Alias.breaks_lines (looked : StoredIdentifier) (aliases : List Alias) :
    List.Forall₂ BreaksWith (Alias.lines pad looked aliases) (Alias.entries looked aliases) := by
  rw [lines, entries]
  generalize aliases.filter (·.identifier.id != looked.id) = others
  cases others with
  | nil => exact .nil
  | cons a rest =>
    refine .cons ?_ ?_
    · simp [BreaksWith, breaks, hpad]
    · rw [List.forall₂_map_left_iff, List.forall₂_map_right_iff, List.forall₂_same]
      intro a _
      simp [BreaksWith, breaks, toString, hpad, Identifier.parts, Identifier.text,
        count_newline_intercalate]

theorem Neighbour.breaks_lines {V : Type} (n : Neighbour V) :
    List.Forall₂ BreaksWith (n.lines pad) n.entries := by
  obtain ⟨kind, direction, link, source, view⟩ := n
  rw [lines, entries]
  refine .cons ?_ ?_
  · cases direction <;>
      simp [BreaksWith, breaks, toString, hpad, Identifier.parts, Identifier.text]
  · cases link.shares with
    | none => exact .nil
    | some s =>
      have hindent : breaks (toString pad) = 0 := hpad
      have hshare (share : Option Binary64) : breaks (toString (shareText share)) = 0 :=
        count_newline_shareText share
      -- the words between the shares are long, and are counted by evaluation
      refine .cons ?_ .nil
      simp only [BreaksWith, breaks_append, hindent, hshare]
      rfl

end Lines

namespace EntityView

theorem count_newline_pad (level : Nat) :
    (String.ofList (List.replicate (2 * level) ' ')).toList.count '\n' = 0 := by
  rw [String.toList_ofList, List.count_eq_zero, List.mem_replicate]
  exact fun h => absurd h.2 (by decide)

mutual
theorem breaks_lines (level : Nat) : ∀ v : EntityView,
    List.Forall₂ BreaksWith (v.lines level) v.entries
  | .mk kind identifier fields aliases neighbours => by
    rw [lines, entries]
    have hpad := count_newline_pad level
    generalize String.ofList (List.replicate (2 * level) ' ') = pad at hpad
    refine List.rel_append (List.rel_append (.cons ?_ ?_) ?_) ?_
    · simp [BreaksWith, breaks, toString, hpad, Identifier.parts, Identifier.text]
    · apply List.rel_flatMap (R := Eq) (List.forall₂_same.mpr fun _ _ => rfl)
      rintro f _ rfl
      exact f.breaks_lines hpad
    · exact Alias.breaks_lines hpad identifier aliases
    · exact breaks_neighbourLines hpad level neighbours

theorem breaks_neighbourLines {pad : String} (hpad : pad.toList.count '\n' = 0) (level : Nat) :
    ∀ ns, List.Forall₂ BreaksWith (neighbourLines pad level ns) (neighbourEntries ns)
  | [] => .nil
  | ⟨kind, direction, link, source, view⟩ :: rest => by
    rw [neighbourLines, neighbourEntries]
    exact List.rel_append (List.rel_append (Neighbour.breaks_lines hpad _)
      (breaks_nestedLines (level + 2) view)) (breaks_neighbourLines hpad level rest)

theorem breaks_nestedLines (level : Nat) :
    ∀ o, List.Forall₂ BreaksWith (nestedLines level o) (nestedEntries o)
  | none => .nil
  | some view => breaks_lines level view
end

theorem lines_ne_nil (level : Nat) (v : EntityView) : v.lines level ≠ [] := by
  obtain ⟨kind, identifier, fields, aliases, neighbours⟩ := v
  exact List.cons_ne_nil _ _

theorem linesOf_text (v : EntityView) :
    Graph.linesOf v.text = (v.lines 0).flatMap Graph.linesOf :=
  linesOf_intercalate (lines_ne_nil 0 v)

theorem length_lines (level : Nat) (v : EntityView) : (v.lines level).length = v.entries.length :=
  (breaks_lines level v).length_eq

theorem sum_breaks_lines (level : Nat) (v : EntityView) :
    ((v.lines level).map breaks).sum = (v.entries.flatten.map breaks).sum := by
  have hsame : (v.lines level).map breaks = v.entries.map fun texts => (texts.map breaks).sum := by
    rw [← List.forall₂_eq_eq_eq, List.forall₂_map_left_iff, List.forall₂_map_right_iff]
    exact breaks_lines level v
  rw [hsame, List.map_flatten, List.sum_flatten, List.map_map]
  rfl

theorem length_linesOf_text (v : EntityView) : (Graph.linesOf v.text).length =
    v.entries.length + (v.entries.flatten.map breaks).sum := by
  rw [linesOf_text, List.length_flatMap, ← sum_breaks_lines 0, ← length_lines 0]
  simp [length_linesOf, List.sum_map_add, Nat.add_comm]

theorem forall_breaks_lines (level : Nat) (v : EntityView) :
    (∀ line ∈ v.lines level, breaks line = 0) ↔ ∀ s ∈ v.entries.flatten, breaks s = 0 := by
  have hsum (texts : List String) : (∀ s ∈ texts, breaks s = 0) ↔ (texts.map breaks).sum = 0 := by
    rw [List.sum_eq_zero_iff, List.forall_mem_map]
  rw [hsum, hsum, sum_breaks_lines]

theorem linesOf_text_eq_iff (v : EntityView) :
    Graph.linesOf v.text = v.lines 0 ↔ ∀ line ∈ v.lines 0, breaks line = 0 := by
  constructor
  · intro hlines
    have hlength := v.length_linesOf_text
    rw [hlines, length_lines, ← sum_breaks_lines 0] at hlength
    rw [← List.forall_mem_map (P := (· = 0)), ← List.sum_eq_zero_iff]
    omega
  · intro hlines
    have hsingle : ∀ line ∈ v.lines 0, Graph.linesOf line = [line] :=
      fun line hline => Graph.linesOf_of_not_mem (breaks_eq_zero.mp (hlines line hline))
    rw [linesOf_text, List.flatMap_congr hsingle, List.flatMap_singleton']

end EntityView

section Unbroken

theorem breaks_label {fields : List FieldValue} (h : ∀ f ∈ fields, breaks f.merged.value = 0) :
    breaks (label fields) = 0 := by
  unfold label
  split
  case h_1 f hf => exact h f (List.mem_of_find?_eq_some hf)
  case h_2 =>
    rw [breaks, String.toList_intercalate, count_newline_intercalate rfl, List.map_map,
      List.sum_eq_zero_iff, List.forall_mem_map]
    exact h

theorem Alias.forall_entries {P : List String → Prop} {looked : StoredIdentifier}
    {aliases : List Alias} (hheading : P [])
    (h : ∀ a ∈ aliases, P (a.identifier.identifier.parts ++ a.sources)) :
    ∀ texts ∈ Alias.entries looked aliases, P texts := by
  rw [entries]
  split
  · exact List.forall_mem_nil P
  · rw [List.forall_mem_cons, List.forall_mem_map]
    exact ⟨hheading, fun a ha => h a (List.mem_of_mem_filter ha)⟩

theorem EntityView.forall_neighbourEntries {P : List String → Prop}
    {ns : List (Neighbour EntityView)} (h : ∀ n ∈ ns, (∀ texts ∈ n.entries, P texts) ∧
      ∀ w, n.view = some w → ∀ texts ∈ w.entries, P texts) :
    ∀ texts ∈ neighbourEntries ns, P texts := by
  induction ns with
  | nil => exact List.forall_mem_nil P
  | cons n ns ih =>
    obtain ⟨⟨hown, hview⟩, hrest⟩ := List.forall_mem_cons.mp h
    obtain ⟨kind, direction, link, source, view⟩ := n
    rw [neighbourEntries, List.forall_mem_append, List.forall_mem_append]
    refine ⟨⟨hown, ?_⟩, ih hrest⟩
    cases view with
    | none => exact List.forall_mem_nil P
    | some w => exact hview w rfl

namespace Index.Unbroken

variable {x : Index} {kind : RecordKind} {id : Nat} (h : x.Unbroken)

include h

theorem nameOf (id : Nat) : breaks (x.nameOf id) = 0 := by
  rw [Index.nameOf]
  cases hname : x.sources.get? id with
  | none => rfl
  | some name =>
    obtain ⟨row, hrow, -, rfl⟩ := Table.exists_row_of_get? hname
    exact h _ (.source (List.mem_map_of_mem hrow))

theorem parts {i : StoredIdentifier} (hi : x.identifier? id = some i) :
    ∀ s ∈ i.identifier.parts, breaks s = 0 := by
  obtain ⟨identifier, hget, rfl⟩ := Option.map_eq_some_iff.mp hi
  obtain ⟨row, hrow, -, rfl⟩ := Table.exists_row_of_get? hget
  have hmem : row.content ∈ x.identifiers.contents := List.mem_map_of_mem hrow
  intro s hs
  rcases List.mem_pair.mp hs with rfl | rfl
  · exact h _ (.scheme hmem)
  · exact h _ (.value hmem)

theorem role {l : StoredLink} (hl : x.HasLink l) : ∀ s ∈ l.role.toList, breaks s = 0 := by
  obtain ⟨row, hrow, hlink⟩ := hl
  obtain ⟨a, -, hlink⟩ := Option.bind_eq_some_iff.mp hlink
  obtain ⟨b, -, hlink⟩ := Option.bind_eq_some_iff.mp hlink
  have hrole : l.role = if l.kind.attributes = .none then none else reportedRole row.content.role :=
    (congrArg StoredLink.role (Option.some.inj hlink)).symm
  intro s hs
  obtain rfl : row.content.role = s := by
    rw [hrole, reportedRole] at hs
    split at hs
    · cases hs
    · split at hs
      · cases hs
      · exact (List.mem_singleton.mp hs).symm
  exact h _ (.role (List.mem_map_of_mem hrow))

theorem values {row : RecordRow} (hrow : row ∈ x.recordRows kind id) :
    ∀ s ∈ row.record.values, breaks s = 0 := by
  obtain ⟨claim, hclaim, hrecord⟩ := List.mem_filterMap.mp hrow
  obtain ⟨record, hread, rfl⟩ := Option.map_eq_some_iff.mp hrecord
  obtain ⟨-, -, hvalues⟩ := Record.ofValues?_eq_some_iff.mp hread
  intro s hs
  refine h s (.record (List.mem_map_of_mem (Index.mem_recordClaims.mp hclaim).1) ?_)
  rw [hvalues] at hs
  exact List.mem_of_mem_take hs

end Index.Unbroken

namespace Resolver

variable {r : Resolver} {kind : RecordKind} {id : Nat} (h : r.index.Sound)
  (hunbroken : r.index.Unbroken)

include h hunbroken

theorem breaks_fieldsOf {f : FieldValue} (hf : f ∈ r.fieldsOf kind id) :
    breaks f.merged.value = 0 ∧ ∀ texts ∈ f.entries, ∀ s ∈ texts, breaks s = 0 := by
  have hrows : r.index.recordRows kind id ≠ [] := by
    intro hnil
    rw [fieldsOf, hnil, List.map_nil, mergeRows_nil] at hf
    cases hf
  obtain ⟨row, hrow, hfields⟩ := exists_fieldsOf_eq h hrows
  rw [hfields] at hf
  obtain ⟨c, hc, rfl⟩ := List.mem_map.mp hf
  have hcolumn : breaks c.1 = 0 := by
    have hcolumns : ∀ column ∈ kind.columns, breaks column = 0 := by
      cases kind <;> decide
    exact hcolumns _ (List.fst_mem_of_mem_zipIdx hc)
  have hvalue : breaks (row.record.values.getD c.2 "") = 0 := by
    rw [List.getD_eq_getElem?_getD]
    cases hget : row.record.values[c.2]? with
    | none => rfl
    | some value => exact hunbroken.values hrow.mem _ (List.mem_of_getElem? hget)
  refine ⟨hvalue, ?_⟩
  rw [FieldValue.entries, fieldAt, List.map_map, List.forall_mem_cons, List.forall_mem_map]
  refine ⟨?_, fun row _ => List.forall_mem_singleton.mpr (hunbroken.nameOf row.source)⟩
  exact List.forall_mem_cons.mpr ⟨hcolumn, List.forall_mem_singleton.mpr hvalue⟩

theorem breaks_aliasesOf {a : Alias} (ha : a ∈ r.aliasesOf kind id) :
    ∀ s ∈ a.identifier.identifier.parts ++ a.sources, breaks s = 0 := by
  rw [aliasesOf_eq_gathered h] at ha
  obtain ⟨i, hi, rfl⟩ := List.mem_map.mp ha
  have hknown := (Index.mem_map_bindings.mp (List.mem_eraseDups.mp hi)).1
  rw [List.forall_mem_append]
  refine ⟨hunbroken.parts hknown, fun s hs => ?_⟩
  obtain ⟨b, hb, rfl⟩ := List.mem_map.mp (List.mem_eraseDups.mp hs)
  obtain ⟨row, -, hb⟩ := List.mem_flatMap.mp (List.mem_of_mem_filter hb)
  obtain ⟨a, -, rfl⟩ := List.mem_map.mp hb
  exact hunbroken.nameOf a.source

omit h in
theorem breaks_neighbourOf {l : StoredLink} (hl : r.index.HasLink l) (direction : Direction)
    (depth : Nat) (path : List Entity) :
    ∀ texts ∈ (r.neighbourOf depth path (l, direction)).entries, ∀ s ∈ texts, breaks s = 0 := by
  rw [Neighbour.entries, List.forall_mem_cons, List.forall_mem_map, List.forall_mem_append,
    List.forall_mem_append]
  refine ⟨⟨⟨hunbroken.role hl, hunbroken.parts (hl.identifier?_far direction)⟩, ?_⟩, nofun⟩
  exact List.forall_mem_singleton.mpr (hunbroken.nameOf l.source)

theorem breaks_viewOf {depth : Nat} {path : List Entity} {i : StoredIdentifier} {v : EntityView}
    (hi : r.index.identifier? i.id = some i) (hview : r.viewOf depth path kind i = some v) :
    ∀ texts ∈ v.entries, ∀ s ∈ texts, breaks s = 0 := by
  -- a neighbour has a view only while levels are left, and its view is to a smaller depth
  induction depth using Nat.strong_induction_on generalizing path kind i v with
  | _ depth ih =>
    rw [viewOf_eq_some hview, EntityView.entries, List.forall_mem_append, List.forall_mem_append,
      List.forall_mem_cons, List.forall_mem_append, List.forall_mem_singleton]
    refine ⟨⟨⟨⟨hunbroken.parts hi, ?heading⟩, ?merged⟩, ?others⟩, ?linked⟩
    case heading => exact breaks_label fun f hf => (breaks_fieldsOf h hunbroken hf).1
    case merged =>
      intro texts htexts
      obtain ⟨f, hf, htexts⟩ := List.mem_flatMap.mp htexts
      exact (breaks_fieldsOf h hunbroken hf).2 texts htexts
    case others => exact Alias.forall_entries nofun fun a ha => breaks_aliasesOf h hunbroken ha
    case linked =>
      apply EntityView.forall_neighbourEntries
      rw [List.forall_mem_map]
      rintro ⟨l, direction⟩ hl
      have hlink := (mem_links.mp hl).1
      refine ⟨breaks_neighbourOf hunbroken hlink direction depth _, fun w hw => ?_⟩
      obtain ⟨hdepth, -, hbelow⟩ := expandOf_eq_some.mp hw
      exact ih (depth - 1) (by omega) (hlink.identifier?_far direction) hbelow

end Resolver

end Unbroken

/-- The text of a view has the lines of its entries in turn, one for each entry and one for each
line break in a text that some entry shows as it is. If no text in the index has a line break, then
each entry is one line. -/
theorem lines_of_view_text (r : Resolver) (hx : r.index.Reachable) {kind : RecordKind}
    {i : Identifier} {depth : Nat} {v : EntityView} (hv : r.resolve kind i depth = .ok v) :
    (∀ level, List.Forall₂ BreaksWith (v.lines level) v.entries) ∧
    Graph.linesOf v.text = (v.lines 0).flatMap Graph.linesOf ∧
    (Graph.linesOf v.text).length = v.entries.length + (v.entries.flatten.map breaks).sum ∧
    (r.index.Unbroken → Graph.linesOf v.text = v.lines 0) := by
  have h := hx.sound
  refine ⟨v.breaks_lines, v.linesOf_text, v.length_linesOf_text, fun hunbroken => ?_⟩
  obtain ⟨hseed, hview⟩ := Resolver.viewOf_of_resolve h hv
  have hknown := h.identifier?_of_find? (h.lookup_eq_ok_iff.mp hseed).1
  rw [EntityView.linesOf_text_eq_iff, EntityView.forall_breaks_lines, List.forall_mem_flatten]
  exact Resolver.breaks_viewOf h hunbroken hknown hview

def Index.aliasedPerformer : Index :=
  let ada : Record := ⟨.performer, ⟨["Ada"], rfl⟩⟩
  Index.empty.after [.createRecord ada (.isni "1") "radio", .createRecord ada (.isni "2") "radio"]

/-- A performer under one identifier, given by a source whose name has line breaks. -/
def Index.forgedAlias : Index :=
  let ada : Record := ⟨.performer, ⟨["Ada"], rfl⟩⟩
  Index.empty.after [.createRecord ada (.isni "1") "radio\n  identifiers:\n    isni:2 (radio)"]

theorem Index.unbroken_aliasedPerformer : aliasedPerformer.Unbroken := by
  have hrecords : ∀ kind, ∀ c ∈ (aliasedPerformer.records kind).contents, ∀ s ∈ c.values,
      breaks s = 0 := by
    intro kind
    cases kind <;> decide +kernel
  have hlinks : ∀ kind, ∀ c ∈ (aliasedPerformer.links kind).contents, breaks c.role = 0 := by
    intro kind
    cases kind <;> decide +kernel
  intro s hs
  cases hs with
  | source hmem => exact (by decide +kernel :
      ∀ name ∈ aliasedPerformer.sources.contents, breaks name = 0) _ hmem
  | scheme hmem => exact (by decide +kernel :
      ∀ i ∈ aliasedPerformer.identifiers.contents, breaks i.scheme = 0) _ hmem
  | value hmem => exact (by decide +kernel :
      ∀ i ∈ aliasedPerformer.identifiers.contents, breaks i.value = 0) _ hmem
  | record hmem hvalue => exact hrecords _ _ hmem _ hvalue
  | role hmem => exact hlinks _ _ hmem

/-- Five entries on as many lines. -/
theorem lines_of_aliased_performer :
    let r : Resolver := ⟨.aliasedPerformer, .empty⟩
    ∃ v, r.resolve .performer (.isni "1") 0 = .ok v ∧ r.index.Reachable ∧
      r.index.Unbroken ∧ List.Forall₂ BreaksWith (v.lines 0) v.entries ∧
      Graph.linesOf v.text = v.lines 0 ∧
      v.lines 0 = ["performer isni:1: Ada", "  name = Ada", "      from radio", "  identifiers:",
        "    isni:2 (radio)"] := by
  intro r
  have hx : r.index.Reachable := Index.Reachable.empty.after _
  have hlines : ((r.resolve .performer (.isni "1") 0).map (·.lines 0)).toOption =
      some ["performer isni:1: Ada", "  name = Ada", "      from radio", "  identifiers:",
        "    isni:2 (radio)"] := by
    decide +kernel
  obtain ⟨v, hv, hlines⟩ := exists_ok_of_toOption_map hlines
  obtain ⟨hentries, -, -, hunbroken⟩ := lines_of_view_text r hx hv
  exact ⟨v, hv, hx, Index.unbroken_aliasedPerformer, hentries 0,
    hunbroken Index.unbroken_aliasedPerformer, hlines⟩

/-- The name of a source breaks the line of a claim, and the text is that of a performer under two
identifiers, although the view lists one. -/
theorem source_name_forges_alias :
    let r : Resolver := ⟨.aliasedPerformer, .empty⟩
    let forged : Resolver := ⟨.forgedAlias, .empty⟩
    ∃ v w, r.resolve .performer (.isni "1") 0 = .ok v ∧
      forged.resolve .performer (.isni "1") 0 = .ok w ∧ forged.index.Reachable ∧
      (∃ line ∈ w.lines 0, '\n' ∈ line.toList) ∧ w.text = v.text ∧
      w.entries.length = 3 ∧ (Graph.linesOf w.text).length = 5 ∧
      v.aliases.map (·.identifier.identifier) = [.isni "1", .isni "2"] ∧
      w.aliases.map (·.identifier.identifier) = [.isni "1"] := by
  intro r forged
  let facts (v : EntityView) :=
    (v.lines 0, v.entries.length, v.aliases.map (·.identifier.identifier))
  have hv : ((r.resolve .performer (.isni "1") 0).map facts).toOption =
      some (["performer isni:1: Ada", "  name = Ada", "      from radio", "  identifiers:",
        "    isni:2 (radio)"], 5, [.isni "1", .isni "2"]) := by
    decide +kernel
  have hw : ((forged.resolve .performer (.isni "1") 0).map facts).toOption =
      some (["performer isni:1: Ada", "  name = Ada",
        "      from radio\n  identifiers:\n    isni:2 (radio)"], 3, [.isni "1"]) := by
    decide +kernel
  obtain ⟨v, hv, hfacts⟩ := exists_ok_of_toOption_map hv
  obtain ⟨w, hw, hfacts'⟩ := exists_ok_of_toOption_map hw
  obtain ⟨hlines, hrest⟩ := Prod.mk.inj hfacts
  obtain ⟨hlines', hrest'⟩ := Prod.mk.inj hfacts'
  obtain ⟨-, haliases⟩ := Prod.mk.inj hrest
  obtain ⟨hcount, haliases'⟩ := Prod.mk.inj hrest'
  have htext : w.text = v.text := by
    rw [EntityView.text, hlines', EntityView.text, hlines]
    decide +kernel
  have hprinted : (Graph.linesOf w.text).length = 5 := by
    rw [EntityView.text, hlines']
    decide +kernel
  refine ⟨v, w, hv, hw, Index.Reachable.empty.after _, ?_, htext, hcount, hprinted, haliases,
    haliases'⟩
  rw [hlines']
  decide +kernel

end MusicIndex
