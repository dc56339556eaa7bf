import MusicIndex.Proofs.NumeralReading

namespace MusicIndex.Json

namespace Reading

section Strings

theorem hexValue?_hexDigit : ∀ n < 16, Text.hexValue? (hexDigit n) = some n := by
  decide

theorem hexValue4?_control {n : Nat} (h : n < 0x20) :
    hexValue4? '0' '0' (hexDigit (n / 16)) (hexDigit (n % 16)) = some n := by
  have hzero : Text.hexValue? '0' = some 0 := by decide
  have hhigh := hexValue?_hexDigit (n / 16) (by omega)
  have hlow := hexValue?_hexDigit (n % 16) (by omega)
  simp only [hexValue4?, List.mapM_cons, List.mapM_nil, hzero, hhigh, hlow,
    Option.bind_eq_bind, Option.bind_some, pure, List.foldl_cons, List.foldl_nil]
  congr 1
  omega

/-- However a character stands in a string, it is read as itself. -/
theorem ofString_escapeChar (reversed : List Char) (c : Char) (s : List Char) :
    ofString ⟨reversed, none, none⟩ (escapeChar c ++ s) =
      ofString ⟨c :: reversed, none, none⟩ s := by
  unfold escapeChar
  split
  case h_8 hquote hslash _ _ _ _ _ =>
    split
    · rename_i hcontrol
      have hsecond : (0xDC00 ≤ c.toNat && c.toNat ≤ 0xDFFF) = false := by
        simp; omega
      have hfirst : (0xD800 ≤ c.toNat && c.toNat ≤ 0xDBFF) = false := by
        simp; omega
      have hunit : (Progress.mk reversed none none).pushUnit c.toNat =
          ⟨c :: reversed, none, none⟩ := by
        simp [Progress.pushUnit, hsecond, hfirst, Char.ofNat_toNat]
      simp only [List.cons_append, List.nil_append, ofString, hexValue4?_control hcontrol, hunit]
    · rename_i hcontrol
      rw [List.singleton_append, ofString.eq_7 _ _ _ hquote (fun h => absurd h hslash)
        (fun _ _ _ _ _ h => absurd h hslash) (fun _ h => absurd h hslash)
        (fun _ _ h => absurd h hslash), if_neg hcontrol]
      rfl
  all_goals rfl

theorem ofString_flatMap (reversed cs s : List Char) :
    ofString ⟨reversed, none, none⟩ (cs.flatMap escapeChar ++ '\"' :: s) =
      (.string (String.ofList (reversed.reverse ++ cs)), s) := by
  induction cs generalizing reversed with
  | nil => simp [ofString, Progress.close, Progress.unpaired]
  | cons c cs ih =>
    rw [List.flatMap_cons, List.append_assoc, ofString_escapeChar, ih]
    simp

theorem ofString_stringText (text : String) (s : List Char) :
    ∃ cs, stringText text ++ s = '\"' :: cs ∧ ofString .start cs = (.string text, s) := by
  refine ⟨text.toList.flatMap escapeChar ++ '\"' :: s, by simp [stringText], ?_⟩
  have hread := ofString_flatMap [] text.toList s
  rw [List.reverse_nil, List.nil_append, String.ofList_toList] at hread
  exact hread

end Strings

end Reading

mutual
/-- The whole numbers of a value fit 64 bits, and the text of each real is read as that real. -/
def Legible : Json → Prop
  | .integer n => -(Nat.pow 2 63 : Nat) ≤ n ∧ n < (Nat.pow 2 64 : Nat)
  | .real x => Reading.ofText (compact (.real x)) = (.real x, [])
  | .array items => LegibleItems items
  | .object members => LegibleMembers members
  | _ => True

def LegibleItems : List Json → Prop
  | [] => True
  | item :: rest => item.Legible ∧ LegibleItems rest

def LegibleMembers : List (String × Json) → Prop
  | [] => True
  | (_, value) :: rest => value.Legible ∧ LegibleMembers rest
end

@[simp]
theorem legible_null : null.Legible := trivial

@[simp]
theorem legible_string (s : String) : (string s).Legible := trivial

@[simp]
theorem legible_object {members : List (String × Json)} :
    (object members).Legible ↔ ∀ m ∈ members, m.2.Legible := by
  rw [Legible]
  induction members with
  | nil => simp [LegibleMembers]
  | cons m rest ih =>
    obtain ⟨name, value⟩ := m
    rw [LegibleMembers, ih, List.forall_mem_cons]

def readsBack (x : Binary64) : Bool :=
  match Reading.ofText (compact (.real x)) with
  | (.real y, []) => y == x
  | _ => false

theorem readsBack_iff {x : Binary64} : readsBack x = true ↔ (real x).Legible := by
  rw [Legible, readsBack]
  constructor
  · intro h
    split at h
    · rename_i y hread
      rw [hread, beq_iff_eq.mp h]
    · cases h
  · intro h
    rw [h]
    exact beq_self_eq_true x

def separator (isFirst : Bool) : List Char :=
  if isFirst then [] else [',']

def itemsFrom (isFirst : Bool) : List Json → List Char
  | [] => [']']
  | item :: rest => separator isFirst ++ (compact item ++ itemsFrom false rest)

def membersFrom (isFirst : Bool) : List (String × Json) → List Char
  | [] => ['\x7d']
  | (name, value) :: rest =>
    separator isFirst ++ (stringText name ++ ':' :: (compact value ++ membersFrom false rest))

theorem compactItems_eq (items : List Json) : compactItems items = itemsFrom true items := by
  induction items with
  | nil => rfl
  | cons item rest ih =>
    cases rest with
    | nil => rfl
    | cons next rest =>
      rw [compactItems, ih]
      · simp [itemsFrom, separator]
      · simp

theorem compactMembers_eq (members : List (String × Json)) :
    compactMembers members = membersFrom true members := by
  induction members with
  | nil => rfl
  | cons m rest ih =>
    obtain ⟨name, value⟩ := m
    cases rest with
    | nil => simp [compactMembers, membersFrom, separator]
    | cons next rest =>
      rw [compactMembers, ih]
      · simp [membersFrom, separator]
      · simp

namespace Reading

variable {r : Reading} {s : List Char} {v : Json}

theorem exists_skipSpace_eq {fuel : Nat} {more : List Char}
    (h : ofValue fuel s = (ofJson v, more)) : ∃ c t, skipSpace s = c :: t ∧ c ≠ ']' := by
  cases fuel with
  | zero => cases v <;> cases h
  | succ fuel =>
    rw [ofValue] at h
    cases hskip : skipSpace s with
    | nil => rw [hskip] at h; cases v <;> cases h
    | cons c t =>
      refine ⟨c, t, rfl, ?_⟩
      rintro rfl
      rw [hskip] at h
      cases v <;> cases h

theorem ofItems_cons {fuel : Nat} {more rest : List Char} {items : List Reading}
    (hitem : ofValue fuel s = (ofJson v, more)) (hmore : ofItems fuel false more = (items, rest))
    (isFirst : Bool) :
    ofItems (fuel + 1) isFirst (separator isFirst ++ s) = (ofJson v :: items, rest) := by
  obtain ⟨c, t, hskip, hc⟩ := exists_skipSpace_eq hitem
  rw [← ofValue_skipSpace, hskip] at hitem
  cases isFirst with
  | true => simp [separator, ofItems, hskip, hitem, hmore]
  | false =>
    have hcomma : skipSpace (',' :: s) = ',' :: s := rfl
    simp [separator, ofItems, hcomma, hskip, hc, hitem, hmore]

theorem ofMembers_cons {fuel : Nat} {more rest : List Char} {members : List (Reading × Reading)}
    (hvalue : ofValue fuel s = (ofJson v, more))
    (hmore : ofMembers fuel false more = (members, rest)) (name : String) (isFirst : Bool) :
    ofMembers (fuel + 1) isFirst (separator isFirst ++ (stringText name ++ ':' :: s)) =
      ((.string name, ofJson v) :: members, rest) := by
  obtain ⟨cs, htext, hname⟩ := ofString_stringText name (':' :: s)
  have hcolon : skipSpace (':' :: s) = ':' :: s := rfl
  have hquote : skipSpace ('\"' :: cs) = '\"' :: cs := rfl
  rw [htext]
  cases isFirst with
  | true => simp [separator, ofMembers, hquote, hname, hcolon, hvalue, hmore]
  | false =>
    have hcomma : skipSpace (',' :: '\"' :: cs) = ',' :: '\"' :: cs := rfl
    simp [separator, ofMembers, hcomma, hquote, hname, hcolon, hvalue, hmore]

theorem endsNumeral_itemsFrom (items : List Json) (s : List Char) :
    EndsNumeral (itemsFrom false items ++ s) := by
  cases items <;> simp [EndsNumeral, itemsFrom, separator]

theorem endsNumeral_membersFrom (members : List (String × Json)) (s : List Char) :
    EndsNumeral (membersFrom false members ++ s) := by
  rcases members with _ | ⟨⟨name, value⟩, rest⟩ <;> simp [EndsNumeral, membersFrom, separator]

theorem length_itemsFrom_le (items : List Json) :
    (itemsFrom false items).length ≤ (itemsFrom true items).length + 1 := by
  cases items <;> simp [itemsFrom, separator]

theorem length_membersFrom_le (members : List (String × Json)) :
    (membersFrom false members).length ≤ (membersFrom true members).length + 1 := by
  rcases members with _ | ⟨⟨name, value⟩, rest⟩ <;> simp [membersFrom, separator]

mutual
/-- The text of a value is read as that value, up to where it ends. -/
theorem ofValue_compact (v : Json) (hv : v.Legible) (fuel : Nat)
    (hfuel : 2 * (compact v).length < fuel) (rest : List Char) (hrest : EndsNumeral rest) :
    ofValue fuel (compact v ++ rest) = (ofJson v, rest) := by
  obtain ⟨fuel, rfl⟩ : ∃ n, fuel = n + 1 := ⟨fuel - 1, by omega⟩
  cases v with
  | null => rfl
  | bool b => cases b <;> rfl
  | integer n => exact ofValue_append (ofText_integer hv.1 hv.2) rfl hrest fuel
  | real x => exact ofValue_append hv rfl hrest fuel
  | string text =>
    obtain ⟨cs, htext, hstring⟩ := ofString_stringText text rest
    rw [compact, htext, ofJson, ← hstring]
    rfl
  | array items =>
    have hlength := length_itemsFrom_le items
    rw [compact, compactItems_eq, List.length_cons] at hfuel
    have hitems := ofItems_itemsFrom items hv true fuel (by omega) rest
    rw [compact, compactItems_eq, List.cons_append, ofJson]
    change ((Reading.array (ofItems fuel true _).1, (ofItems fuel true _).2) : _ × _) = _
    rw [hitems]
  | object members =>
    have hlength := length_membersFrom_le members
    rw [compact, compactMembers_eq, List.length_cons] at hfuel
    have hmembers := ofMembers_membersFrom members hv true fuel (by omega) rest
    rw [compact, compactMembers_eq, List.cons_append, ofJson]
    change ((Reading.object (ofMembers fuel true _).1, (ofMembers fuel true _).2) : _ × _) = _
    rw [hmembers]

theorem ofItems_itemsFrom (items : List Json) (h : LegibleItems items) (isFirst : Bool)
    (fuel : Nat) (hfuel : 2 * (itemsFrom false items).length ≤ fuel) (rest : List Char) :
    ofItems fuel isFirst (itemsFrom isFirst items ++ rest) = (ofJsonItems items, rest) := by
  cases items with
  | nil =>
    obtain ⟨fuel, rfl⟩ : ∃ n, fuel = n + 1 := ⟨fuel - 1, by simp [itemsFrom] at hfuel; omega⟩
    rfl
  | cons item others =>
    obtain ⟨hitem, hothers⟩ := h
    simp only [itemsFrom, separator, List.length_append, Bool.false_eq_true, if_false,
      List.length_singleton] at hfuel
    obtain ⟨fuel, rfl⟩ : ∃ n, fuel = n + 1 := ⟨fuel - 1, by omega⟩
    rw [itemsFrom, List.append_assoc, List.append_assoc]
    exact ofItems_cons
      (ofValue_compact item hitem fuel (by omega) _ (endsNumeral_itemsFrom others rest))
      (ofItems_itemsFrom others hothers false fuel (by omega) rest) isFirst

theorem ofMembers_membersFrom (members : List (String × Json)) (h : LegibleMembers members)
    (isFirst : Bool) (fuel : Nat) (hfuel : 2 * (membersFrom false members).length ≤ fuel)
    (rest : List Char) :
    ofMembers fuel isFirst (membersFrom isFirst members ++ rest) =
      (ofJsonMembers members, rest) := by
  cases members with
  | nil =>
    obtain ⟨fuel, rfl⟩ : ∃ n, fuel = n + 1 := ⟨fuel - 1, by simp [membersFrom] at hfuel; omega⟩
    rfl
  | cons m others =>
    obtain ⟨name, value⟩ := m
    obtain ⟨hvalue, hothers⟩ := h
    simp only [membersFrom, separator, List.length_append, Bool.false_eq_true, if_false,
      List.length_cons] at hfuel
    obtain ⟨fuel, rfl⟩ : ∃ n, fuel = n + 1 := ⟨fuel - 1, by omega⟩
    have hmember := ofMembers_cons
      (ofValue_compact value hvalue fuel (by omega) _ (endsNumeral_membersFrom others rest))
      (ofMembers_membersFrom others hothers false fuel (by omega) rest) name isFirst
    simpa [membersFrom, ofJsonMembers] using hmember
end

theorem ofText_compact {v : Json} (hv : v.Legible) : ofText (compact v) = (ofJson v, []) := by
  have hread := ofValue_compact v hv (2 * (compact v).length + 2) (by omega) [] nofun
  rwa [List.append_nil] at hread

end Reading

end MusicIndex.Json
