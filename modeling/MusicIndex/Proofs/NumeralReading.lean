import Mathlib.Data.List.DropRight
import Mathlib.Data.List.TakeWhile
import MusicIndex.Json.Printer
import MusicIndex.Json.Reading

namespace MusicIndex.Json.Reading

/-- The text cannot go on a numeral. -/
def EndsNumeral (s : List Char) : Prop :=
  ∀ c ∈ s.head?, c.isDigit = false ∧ c ≠ '.' ∧ c ≠ 'e' ∧ c ≠ 'E'

def isNumber : Reading → Bool
  | .integer _ | .real _ => true
  | _ => false

variable {r : Reading} {s rest : List Char} {x : Numeral}

theorem digits_append (hrest : EndsNumeral rest) :
    digits (s ++ rest) = ((digits s).1, (digits s).2 ++ rest) := by
  induction s with
  | nil =>
    cases rest with
    | nil => rfl
    | cons c rest =>
      obtain ⟨hdigit, -⟩ := hrest c rfl
      simp [digits, hdigit]
  | cons c s ih =>
    simp only [digits, Prod.mk.injEq] at ih
    cases hdigit : c.isDigit <;> simp [digits, hdigit, ih]

theorem isNumber_noDigit (s : List Char) : (noDigit s).isNumber = false := by
  cases s <;> rfl

def ofExponentDigits (x : Numeral) (minus : Bool) (s : List Char) : Reading × List Char :=
  match digits s with
  | ([], _) => (noDigit s, [])
  | (ds, rest) => (ofNumeral { x with exponent := some (minus, ds) }, rest)

theorem ofExponent_cons (x : Numeral) (c : Char) (s : List Char) :
    ofExponent x (c :: s) =
      if c = 'e' ∨ c = 'E' then
        match s with
        | '+' :: s => ofExponentDigits x false s
        | '-' :: s => ofExponentDigits x true s
        | s => ofExponentDigits x false s
      else (ofNumeral x, c :: s) := rfl

theorem ofExponentDigits_append {minus : Bool} (h : ofExponentDigits x minus s = (r, []))
    (hr : r.isNumber = true) (hrest : EndsNumeral rest) :
    ofExponentDigits x minus (s ++ rest) = (r, rest) := by
  rw [ofExponentDigits, digits_append hrest]
  rw [ofExponentDigits] at h
  generalize digits s = read at h ⊢
  rcases read with ⟨_ | ⟨d, ds⟩, t⟩
  · cases h
    rw [isNumber_noDigit] at hr
    cases hr
  · cases h
    rfl

theorem ofExponent_append (h : ofExponent x s = (r, [])) (hr : r.isNumber = true)
    (hrest : EndsNumeral rest) : ofExponent x (s ++ rest) = (r, rest) := by
  cases s with
  | nil =>
    cases h
    cases rest with
    | nil => rfl
    | cons c rest =>
      obtain ⟨-, -, he, hE⟩ := hrest c rfl
      rw [List.nil_append, ofExponent_cons, if_neg (by simp [he, hE])]
  | cons c s =>
    rw [List.cons_append, ofExponent_cons]
    rw [ofExponent_cons] at h
    split
    · rename_i hc
      rw [if_pos hc] at h
      split at h
      · exact ofExponentDigits_append h hr hrest
      · exact ofExponentDigits_append h hr hrest
      · rename_i hplus hminus
        cases s with
        | nil =>
          cases h
          cases hr
        | cons d s =>
          have happend := ofExponentDigits_append h hr hrest
          rw [List.cons_append] at happend ⊢
          split
          · rename_i hd
            cases hd
            exact absurd rfl (hplus s)
          · rename_i hd
            cases hd
            exact absurd rfl (hminus s)
          · exact happend
    · rename_i hc
      rw [if_neg hc] at h
      cases h

def ofFraction (negative : Bool) (whole : List Nat) : List Char → Reading × List Char
  | '.' :: s =>
    match digits s with
    | ([], _) => (noDigit s, [])
    | (fraction, rest) => ofExponent ⟨negative, whole, fraction, none⟩ rest
  | rest => ofExponent ⟨negative, whole, [], none⟩ rest

theorem ofFraction_append {negative : Bool} {whole : List Nat}
    (h : ofFraction negative whole s = (r, [])) (hr : r.isNumber = true)
    (hrest : EndsNumeral rest) : ofFraction negative whole (s ++ rest) = (r, rest) := by
  unfold ofFraction at h
  split at h
  · rename_i s
    rw [List.cons_append, ofFraction, digits_append hrest]
    generalize digits s = read at h ⊢
    rcases read with ⟨_ | ⟨d, ds⟩, t⟩
    · cases h
      rw [isNumber_noDigit] at hr
      cases hr
    · exact ofExponent_append h hr hrest
  · rename_i hpoint
    have hhead : ∀ t, s ++ rest ≠ '.' :: t := by
      intro t ht
      cases s with
      | nil => exact (hrest '.' (by rw [← List.nil_append rest, ht]; rfl)).2.1 rfl
      | cons c s =>
        cases ht
        exact hpoint s rfl
    rw [ofFraction.eq_2 _ _ _ hhead]
    exact ofExponent_append h hr hrest

def IsWhole (whole : List Nat) : Prop :=
  whole ≠ [] ∧ ∀ d ds, whole ≠ 0 :: d :: ds

theorem ofUnsigned_of_isWhole {negative : Bool} {whole : List Nat}
    (hread : digits s = (whole, rest)) (hwhole : IsWhole whole) :
    ofUnsigned negative s = ofFraction negative whole rest := by
  rw [ofUnsigned, hread]
  split
  · rename_i heq
    cases heq
    exact absurd rfl hwhole.1
  · rename_i heq
    cases heq
    exact absurd rfl (hwhole.2 _ _)
  · rename_i heq
    cases heq
    rfl
  · rename_i hpoint heq
    cases heq
    rw [ofFraction.eq_2 _ _ _ fun t ht => hpoint t (by rw [ht])]

theorem exists_isWhole {negative : Bool} (h : (ofUnsigned negative s).1.isNumber = true) :
    ∃ whole t, digits s = (whole, t) ∧ IsWhole whole := by
  rw [ofUnsigned] at h
  generalize digits s = read at h ⊢
  obtain ⟨whole, t⟩ := read
  refine ⟨whole, t, rfl, ?_, ?_⟩
  · rintro rfl
    rw [isNumber_noDigit] at h
    cases h
  · rintro d ds rfl
    cases h

theorem ofUnsigned_append {negative : Bool} (h : ofUnsigned negative s = (r, []))
    (hr : r.isNumber = true) (hrest : EndsNumeral rest) :
    ofUnsigned negative (s ++ rest) = (r, rest) := by
  have hnumber : (ofUnsigned negative s).1.isNumber = true := by rw [h]; exact hr
  obtain ⟨whole, t, hread, hwhole⟩ := exists_isWhole hnumber
  rw [ofUnsigned_of_isWhole hread hwhole] at h
  rw [ofUnsigned_of_isWhole ((digits_append hrest).trans (by rw [hread])) hwhole]
  exact ofFraction_append h hr hrest

theorem isNumber_ofWord {value : Reading} (hvalue : value.isNumber = false)
    (word s : List Char) : (ofWord value word s).1.isNumber = false := by
  induction word generalizing s with
  | nil => exact hvalue
  | cons c word ih =>
    cases s with
    | nil => rfl
    | cons d s =>
      rw [ofWord]
      split
      · exact ih s
      · rfl

theorem isNumber_ofString (p : Progress) (s : List Char) :
    (ofString p s).1.isNumber = false := by
  have hclose (p : Progress) : p.close.isNumber = false := by
    unfold Progress.close
    split <;> rfl
  fun_induction ofString p s <;> first | exact hclose _ | rfl | assumption

theorem skipSpace_skipSpace (s : List Char) : skipSpace (skipSpace s) = skipSpace s :=
  List.dropWhile_idempotent _ _

theorem ofValue_skipSpace (fuel : Nat) (s : List Char) :
    ofValue fuel (skipSpace s) = ofValue fuel s := by
  cases fuel with
  | zero => rfl
  | succ fuel => rw [ofValue, ofValue, skipSpace_skipSpace]

theorem ofValue_of_isDigit {c : Char} (hc : c.isDigit = true) (fuel : Nat) (s : List Char) :
    ofValue (fuel + 1) (c :: s) = ofUnsigned false (c :: s) := by
  have hne (d : Char) (hd : d.isDigit = false) : c ≠ d := by
    rintro rfl
    rw [hd] at hc
    cases hc
  have hskip : skipSpace (c :: s) = c :: s := by
    simp [skipSpace, isSpace, hne ' ' rfl, hne '\n' rfl, hne '\t' rfl, hne '\r' rfl]
  rw [ofValue, hskip]
  simp [hc, hne 'n' rfl, hne 't' rfl, hne 'f' rfl, hne '\"' rfl, hne '[' rfl, hne '\x7b' rfl,
    hne '-' rfl]

theorem skipSpace_append (h : skipSpace s ≠ []) (rest : List Char) :
    skipSpace (s ++ rest) = skipSpace s ++ rest := by
  rw [skipSpace, skipSpace, List.dropWhile_append]
  rw [if_neg]
  simpa [skipSpace] using h

/-- A number that is read from a text of its own is read from any text that goes on otherwise. -/
theorem ofValue_append {fuel : Nat} (h : ofValue (fuel + 1) s = (r, [])) (hr : r.isNumber = true)
    (hrest : EndsNumeral rest) (fuel' : Nat) : ofValue (fuel' + 1) (s ++ rest) = (r, rest) := by
  have hnot {read : Reading × List Char} (hread : read.1.isNumber = false) : read ≠ (r, []) := by
    rintro rfl
    rw [hr] at hread
    cases hread
  rw [ofValue] at h
  split at h
  · exact absurd h (hnot rfl)
  · exact absurd h (hnot (isNumber_ofWord rfl _ _))
  · exact absurd h (hnot (isNumber_ofWord rfl _ _))
  · exact absurd h (hnot (isNumber_ofWord rfl _ _))
  · exact absurd h (hnot (isNumber_ofString _ _))
  · exact absurd h (hnot rfl)
  · exact absurd h (hnot rfl)
  · rename_i s' hskip
    rw [ofValue, skipSpace_append (by simp [hskip]), hskip]
    exact ofUnsigned_append h hr hrest
  · rename_i c s' _ _ _ _ _ _ _ hskip
    split at h
    · rename_i hdigit
      rw [← ofValue_skipSpace, skipSpace_append (by simp [hskip]), hskip]
      exact (ofValue_of_isDigit hdigit fuel' _).trans (ofUnsigned_append h hr hrest)
    · exact absurd h (hnot rfl)

section Integers

def digitsOf (n : Nat) : List Nat :=
  (Nat.toDigits 10 n).map fun c => c.toNat - 48

theorem isDigit_of_mem_toDigits {n : Nat} {c : Char} (h : c ∈ Nat.toDigits 10 n) :
    c.isDigit = true :=
  Nat.isDigit_of_mem_toDigits (by omega) (by omega) h

theorem digits_toDigits (n : Nat) : digits (Nat.toDigits 10 n) = (digitsOf n, []) := by
  have hall : ∀ c ∈ Nat.toDigits 10 n, c.isDigit = true := fun c => isDigit_of_mem_toDigits
  rw [digits, List.takeWhile_eq_self_iff.mpr hall, List.dropWhile_eq_nil_iff.mpr hall, digitsOf]

theorem digitsOf_lt {n : Nat} (h : n < 10) : digitsOf n = [n] := by
  rw [digitsOf, Nat.toDigits_of_lt_base h]
  revert n
  decide

theorem digitsOf_ge {n : Nat} (h : 10 ≤ n) : digitsOf n = digitsOf (n / 10) ++ [n % 10] := by
  have hlast : n % 10 < 10 := Nat.mod_lt n (by omega)
  rw [digitsOf, Nat.toDigits_eq_if (by omega), if_neg (by omega), List.map_append,
    ← Nat.toDigits_of_lt_base hlast]
  exact congrArg (digitsOf (n / 10) ++ ·) (digitsOf_lt hlast)

theorem ofDigits_digitsOf (n : Nat) : Numeral.ofDigits (digitsOf n) = n := by
  induction n using Nat.strongRecOn with
  | _ n ih =>
    rcases Nat.lt_or_ge n 10 with h | h
    · rw [digitsOf_lt h]
      exact Nat.zero_add n
    · have hn := ih (n / 10) (by omega)
      rw [Numeral.ofDigits] at hn ⊢
      rw [digitsOf_ge h, List.foldl_append, hn]
      exact Nat.div_add_mod' n 10

theorem isWhole_digitsOf (n : Nat) : IsWhole (digitsOf n) := by
  have hfirst : 0 < n → ∃ d ds, digitsOf n = (d + 1) :: ds := by
    induction n using Nat.strongRecOn with
    | _ n ih =>
      intro hn
      rcases Nat.lt_or_ge n 10 with h | h
      · exact ⟨n - 1, [], by rw [digitsOf_lt h, Nat.sub_add_cancel hn]⟩
      · obtain ⟨d, ds, hd⟩ := ih (n / 10) (by omega) (by omega)
        exact ⟨d, ds ++ [n % 10], by rw [digitsOf_ge h, hd]; rfl⟩
  rcases Nat.eq_zero_or_pos n with rfl | hn
  · rw [digitsOf_lt (by omega)]
    exact ⟨nofun, nofun⟩
  · obtain ⟨d, ds, hd⟩ := hfirst hn
    rw [hd]
    exact ⟨nofun, nofun⟩

theorem ofUnsigned_toDigits (negative : Bool) (n : Nat) :
    ofUnsigned negative (Nat.toDigits 10 n) =
      (ofNumeral ⟨negative, digitsOf n, [], none⟩, []) :=
  ofUnsigned_of_isWhole (digits_toDigits n) (isWhole_digitsOf n)

theorem compact_integer (n : Int) :
    compact (.integer n) =
      match n with
      | .ofNat n => Nat.toDigits 10 n
      | .negSucc n => '-' :: Nat.toDigits 10 (n + 1) := by
  cases n with
  | ofNat n =>
    change (Nat.repr n).toList = _
    rw [Nat.repr_eq_ofList_toDigits, String.toList_ofList]
  | negSucc n =>
    change ("-" ++ Nat.repr (n + 1)).toList = _
    rw [Nat.repr_eq_ofList_toDigits]
    simp

theorem ofText_integer {n : Int} (hlow : -(Nat.pow 2 63 : Nat) ≤ n)
    (hhigh : n < (Nat.pow 2 64 : Nat)) : ofText (compact (.integer n)) = (.integer n, []) := by
  rw [compact_integer]
  cases n with
  | ofNat n =>
    have hn : n < Nat.pow 2 64 := Int.ofNat_lt.mp hhigh
    have hnumber : (⟨false, digitsOf n, [], none⟩ : Numeral).number? = some (.integer n) := by
      simp only [Numeral.number?, ofDigits_digitsOf]
      rw [if_pos (by simp [hn])]
    have hread : ofText (Nat.toDigits 10 n) = ofUnsigned false (Nat.toDigits 10 n) := by
      cases hs : Nat.toDigits 10 n with
      | nil => exact absurd hs Nat.toDigits_ne_nil
      | cons c s =>
        have hc : c ∈ Nat.toDigits 10 n := hs ▸ List.mem_cons_self
        exact ofValue_of_isDigit (isDigit_of_mem_toDigits hc) _ s
    dsimp only
    rw [hread, ofUnsigned_toDigits, ofNumeral, hnumber]
    rfl
  | negSucc n =>
    have hn : n + 1 ≤ Nat.pow 2 63 := by omega
    have hnumber : (⟨true, digitsOf (n + 1), [], none⟩ : Numeral).number? =
        some (.integer (.negSucc n)) := by
      simp only [Numeral.number?, ofDigits_digitsOf]
      rw [if_neg (by simp), if_pos (by simp [hn])]
      rfl
    change ofUnsigned true (Nat.toDigits 10 (n + 1)) = _
    rw [ofUnsigned_toDigits, ofNumeral, hnumber]

end Integers

end MusicIndex.Json.Reading
