import MusicIndex.Proofs.FeedReport

namespace MusicIndex

/-- The lines of a feed, each with the line feed that ends it. -/
def feedSegments (bytes : List UInt8) : List (List UInt8) :=
  bytes.foldr (fun b segments =>
    if b = 10 then [b] :: segments
    else
      match segments with
      | [] => [[b]]
      | segment :: rest => (b :: segment) :: rest) []

def lineOf (segment : List UInt8) : List UInt8 :=
  segment.filter (· ≠ 10)

/-- A feed has a line for each line feed, and one more where something follows the last of them. -/
def lineCount (bytes : List UInt8) : Nat :=
  bytes.count 10 + if bytes.getLast?.all (· = 10) then 0 else 1

/-- Every segment is a line that is not cut, and all but the last one have an end. -/
structure Segmented (segments : List (List UInt8)) : Prop where
  ended : segments.Pairwise fun s _ => ∃ line, 10 ∉ line ∧ s = line ++ [10]
  whole : ∀ s ∈ segments, s ≠ [] ∧ 10 ∉ s.dropLast

section Cons

variable {b : UInt8} {bytes line : List UInt8}

theorem feedSegments_cons_lf (bytes : List UInt8) :
    feedSegments (10 :: bytes) = [10] :: feedSegments bytes := rfl

theorem feedSegments_cons (h : b ≠ 10) : feedSegments (b :: bytes) =
    match feedSegments bytes with
    | [] => [[b]]
    | segment :: rest => (b :: segment) :: rest := by
  change (if b = 10 then _ else _) = _
  rw [if_neg h]
  rfl

theorem feedLines_cons_lf (bytes : List UInt8) :
    feedLines (10 :: bytes) = [] :: feedLines bytes := rfl

theorem feedLines_cons (h : b ≠ 10) : feedLines (b :: bytes) =
    match feedLines bytes with
    | [] => [[b]]
    | line :: rest => (b :: line) :: rest := by
  change (if b = 10 then _ else _) = _
  rw [if_neg h]
  rfl

theorem feedSegments_append_lf (h : 10 ∉ line) :
    feedSegments (line ++ 10 :: bytes) = (line ++ [10]) :: feedSegments bytes := by
  induction line with
  | nil => rfl
  | cons b line ih =>
    have hb : b ≠ 10 := fun e => h (e ▸ List.mem_cons_self)
    have hline : 10 ∉ line := fun hm => h (List.mem_cons_of_mem _ hm)
    rw [List.cons_append, feedSegments_cons hb, ih hline]
    rfl

theorem feedSegments_of_not_mem (h : 10 ∉ line) (hne : line ≠ []) :
    feedSegments line = [line] := by
  induction line with
  | nil => exact absurd rfl hne
  | cons b line ih =>
    have hb : b ≠ 10 := fun e => h (e ▸ List.mem_cons_self)
    have hline : 10 ∉ line := fun hm => h (List.mem_cons_of_mem _ hm)
    rw [feedSegments_cons hb]
    cases line with
    | nil => rfl
    | cons c line => rw [ih hline (List.cons_ne_nil _ _)]

end Cons

theorem flatten_feedSegments (bytes : List UInt8) : (feedSegments bytes).flatten = bytes := by
  induction bytes with
  | nil => rfl
  | cons b bytes ih =>
    by_cases h : b = 10
    · rw [h, feedSegments_cons_lf, List.flatten_cons, ih]
      rfl
    · rw [feedSegments_cons h]
      cases hs : feedSegments bytes with
      | nil =>
        rw [hs] at ih
        rw [← ih]
        rfl
      | cons segment rest =>
        rw [hs] at ih
        rw [← ih]
        rfl

theorem map_lineOf_feedSegments (bytes : List UInt8) :
    (feedSegments bytes).map lineOf = feedLines bytes := by
  induction bytes with
  | nil => rfl
  | cons b bytes ih =>
    by_cases h : b = 10
    · rw [h, feedSegments_cons_lf, feedLines_cons_lf, List.map_cons, ih]
      rfl
    · have hb : decide (b ≠ 10) = true := decide_eq_true h
      rw [feedSegments_cons h, feedLines_cons h, ← ih]
      cases feedSegments bytes with
      | nil => simp [lineOf, h]
      | cons segment rest => simp [lineOf, h]

theorem length_feedLines (bytes : List UInt8) : (feedLines bytes).length = lineCount bytes := by
  induction bytes with
  | nil => rfl
  | cons b bytes ih =>
    have hlast (c : UInt8) (more : List UInt8) :
        (b :: c :: more).getLast? = (c :: more).getLast? := List.getLast?_cons_cons
    by_cases h : b = 10
    · rw [h, feedLines_cons_lf, List.length_cons, ih]
      cases bytes with
      | nil => rfl
      | cons c more =>
        rw [h] at hlast
        rw [lineCount, lineCount, hlast, List.count_cons_self]
        omega
    · rw [feedLines_cons h]
      cases bytes with
      | nil => simp [feedLines, lineCount, h]
      | cons c more =>
        rw [lineCount, hlast, List.count_cons_of_ne h, ← lineCount, ← ih]
        cases hlines : feedLines (c :: more) with
        | nil =>
          have hflat := map_lineOf_feedSegments (c :: more)
          rw [hlines, List.map_eq_nil_iff] at hflat
          have hbytes := flatten_feedSegments (c :: more)
          rw [hflat] at hbytes
          cases hbytes
        | cons line rest => rfl

namespace Segmented

variable {segments kept : List (List UInt8)}

theorem feedSegments (bytes : List UInt8) : Segmented (feedSegments bytes) := by
  induction bytes with
  | nil => exact ⟨.nil, fun s hs => absurd hs List.not_mem_nil⟩
  | cons b bytes ih =>
    by_cases h : b = 10
    · rw [h, feedSegments_cons_lf]
      refine ⟨.cons (fun s _ => ⟨[], List.not_mem_nil, rfl⟩) ih.ended, ?_⟩
      intro s hs
      rcases List.mem_cons.mp hs with rfl | hs
      · exact ⟨List.cons_ne_nil _ _, List.not_mem_nil⟩
      · exact ih.whole s hs
    · rw [feedSegments_cons h]
      cases hsegments : MusicIndex.feedSegments bytes with
      | nil =>
        refine ⟨List.pairwise_singleton _ _, ?_⟩
        intro s hs
        rw [List.mem_singleton.mp hs]
        exact ⟨List.cons_ne_nil _ _, List.not_mem_nil⟩
      | cons segment rest =>
        rw [hsegments] at ih
        obtain ⟨hfirst, hrest⟩ := List.pairwise_cons.mp ih.ended
        obtain ⟨hne, hcut⟩ := ih.whole segment List.mem_cons_self
        constructor
        · refine .cons (fun s hs => ?_) hrest
          obtain ⟨line, hline, he⟩ := hfirst s hs
          exact ⟨b :: line, fun hm => (List.mem_cons.mp hm).elim (fun e => h e.symm) hline,
            congrArg (b :: ·) he⟩
        · intro s hs
          rcases List.mem_cons.mp hs with rfl | hs
          · rw [List.dropLast_cons_of_ne_nil hne]
            exact ⟨List.cons_ne_nil _ _,
              fun hm => (List.mem_cons.mp hm).elim (fun e => h e.symm) hcut⟩
          · exact ih.whole s (List.mem_cons_of_mem _ hs)

theorem sublist (h : Segmented segments) (hk : kept.Sublist segments) : Segmented kept :=
  ⟨h.ended.sublist hk, fun s hs => h.whole s (hk.subset hs)⟩

theorem feedSegments_flatten (h : Segmented segments) :
    MusicIndex.feedSegments segments.flatten = segments := by
  induction segments with
  | nil => rfl
  | cons s rest ih =>
    have hrest := ih (h.sublist (List.sublist_cons_self s rest))
    obtain ⟨hne, hcut⟩ := h.whole s List.mem_cons_self
    by_cases hlast : s.getLast hne = 10
    · have hs : s = s.dropLast ++ [10] := by
        rw [← hlast, List.dropLast_append_getLast hne]
      rw [List.flatten_cons, hs, List.append_assoc, List.singleton_append,
        feedSegments_append_lf hcut, hrest]
    · cases rest with
      | nil =>
        have hmem : 10 ∉ s := by
          intro hm
          rw [← List.dropLast_append_getLast hne] at hm
          rcases List.mem_append.mp hm with hm | hm
          · exact hcut hm
          · exact hlast (List.mem_singleton.mp hm).symm
        rw [List.flatten_cons, List.flatten_nil, List.append_nil]
        exact feedSegments_of_not_mem hmem hne
      | cons t rest =>
        obtain ⟨line, -, rfl⟩ := (List.pairwise_cons.mp h.ended).1 t List.mem_cons_self
        exact absurd List.getLast_concat hlast

theorem feedLines_flatten (h : Segmented segments) :
    feedLines segments.flatten = segments.map lineOf := by
  rw [← map_lineOf_feedSegments, h.feedSegments_flatten]

end Segmented

/-- The lines of a feed before a line, of which the first one has the number 1. -/
def linesBefore (number : Nat) (bytes : List UInt8) : List UInt8 :=
  ((feedSegments bytes).take (number - 1)).flatten

theorem feedLines_linesBefore (number : Nat) (bytes : List UInt8) :
    feedLines (linesBefore number bytes) = (feedLines bytes).take (number - 1) := by
  have hpart := (Segmented.feedSegments bytes).sublist (List.take_sublist (number - 1) _)
  rw [linesBefore, hpart.feedLines_flatten, List.map_take, map_lineOf_feedSegments]

end MusicIndex
