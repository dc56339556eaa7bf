import Mathlib.Data.List.TakeWhile
import MusicIndex.Feed.Files

namespace MusicIndex

namespace Path

/-- What an entry of a directory may be called. -/
structure IsName (name : String) : Prop where
  ne_empty : name ≠ ""
  ne_dot : name ≠ "."
  ne_dots : name ≠ ".."
  no_slash : '/' ∉ name.toList

instance (name : String) : Decidable (IsName name) :=
  decidable_of_iff (name ≠ "" ∧ name ≠ "." ∧ name ≠ ".." ∧ '/' ∉ name.toList)
    ⟨fun ⟨h, h', h'', h'''⟩ => ⟨h, h', h'', h'''⟩,
      fun h => ⟨h.ne_empty, h.ne_dot, h.ne_dots, h.no_slash⟩⟩

def pieces (cs : List Char) : List (List Char) :=
  cs.foldr (fun c pieces =>
    if c = '/' then [] :: pieces
    else
      match pieces with
      | [] => [[c]]
      | piece :: rest => (c :: piece) :: rest) [[]]

variable {path name stem extension : String}

section Segments

theorem segments_eq (path : String) : segments path = (pieces path.toList).map String.ofList := rfl

theorem pieces_cons_slash (cs : List Char) : pieces ('/' :: cs) = [] :: pieces cs := rfl

theorem pieces_cons {c : Char} (h : c ≠ '/') (cs : List Char) :
    pieces (c :: cs) =
      match pieces cs with
      | [] => [[c]]
      | piece :: rest => (c :: piece) :: rest := by
  change (if c = '/' then _ else _) = _
  rw [if_neg h]
  rfl

theorem pieces_ne_nil (cs : List Char) : pieces cs ≠ [] := by
  cases cs with
  | nil => exact List.cons_ne_nil _ _
  | cons c cs =>
    by_cases h : c = '/'
    · rw [h, pieces_cons_slash]
      exact List.cons_ne_nil _ _
    · rw [pieces_cons h]
      cases pieces cs <;> exact List.cons_ne_nil _ _

theorem pieces_append_slash (cs ds : List Char) :
    pieces (cs ++ '/' :: ds) = pieces cs ++ pieces ds := by
  induction cs with
  | nil => rfl
  | cons c cs ih =>
    by_cases h : c = '/'
    · rw [h, List.cons_append, pieces_cons_slash, pieces_cons_slash, ih, List.cons_append]
    · rw [List.cons_append, pieces_cons h, pieces_cons h, ih]
      cases hcs : pieces cs with
      | nil => exact absurd hcs (pieces_ne_nil cs)
      | cons piece rest => rfl

theorem pieces_of_not_mem {cs : List Char} (h : '/' ∉ cs) : pieces cs = [cs] := by
  induction cs with
  | nil => rfl
  | cons c cs ih =>
    have hc : c ≠ '/' := fun e => h (e ▸ List.mem_cons_self)
    rw [pieces_cons hc, ih fun hm => h (List.mem_cons_of_mem _ hm)]

theorem segments_of_isName (h : IsName name) : segments name = [name] := by
  rw [segments_eq, pieces_of_not_mem h.no_slash]
  simp

theorem isAbsolute_eq_false (h : IsName name) : isAbsolute name = false := by
  unfold isAbsolute
  cases hn : name.toList with
  | nil => rfl
  | cons c cs =>
    have hc : c ≠ '/' := fun e => h.no_slash (by rw [hn, e]; exact List.mem_cons_self)
    simpa using hc

theorem exists_toList_join (hpath : path ≠ "") (h : IsName name) :
    ∃ before, (path.toList = before ∨ path.toList = before ++ ['/']) ∧
      (join path name).toList = before ++ '/' :: name.toList := by
  unfold join
  rw [isAbsolute_eq_false h, if_neg Bool.false_ne_true]
  split
  · rename_i hlast
    exact absurd (String.toList_eq_nil_iff.mp (List.getLast?_eq_none_iff.mp hlast)) hpath
  · rename_i hlast
    obtain ⟨before, hbefore⟩ := List.getLast?_eq_some_iff.mp hlast
    exact ⟨before, .inr hbefore, by simp [hbefore]⟩
  · exact ⟨path.toList, .inl rfl, by simp⟩

theorem exists_segments_join (hpath : path ≠ "") (h : IsName name) :
    ∃ before, (segments path = before ∨ segments path = before ++ [""]) ∧
      segments (join path name) = before ++ [name] := by
  obtain ⟨before, hbefore, hjoin⟩ := exists_toList_join hpath h
  refine ⟨(pieces before).map String.ofList, ?_, ?_⟩
  · rcases hbefore with he | he
    · exact .inl (by rw [segments_eq, he])
    · refine .inr ?_
      rw [segments_eq, he, pieces_append_slash, List.map_append]
      rfl
  · rw [segments_eq, hjoin, pieces_append_slash, pieces_of_not_mem h.no_slash, List.map_append,
      List.map_singleton, String.ofList_toList]

theorem isAbsolute_join (hpath : path ≠ "") (h : IsName name) :
    isAbsolute (join path name) = isAbsolute path := by
  obtain ⟨before, hbefore, hjoin⟩ := exists_toList_join hpath h
  rw [isAbsolute, isAbsolute, hjoin]
  cases before with
  | nil =>
    rcases hbefore with he | he
    · exact absurd (String.toList_eq_nil_iff.mp he) hpath
    · rw [he]
      rfl
  | cons c before => rcases hbefore with he | he <;> rw [he] <;> rfl

theorem join_ne_empty (h : IsName name) : join path name ≠ "" := by
  by_cases hpath : path = ""
  · rw [hpath, join, isAbsolute_eq_false h]
    exact h.ne_empty
  · obtain ⟨before, -, hjoin⟩ := exists_toList_join hpath h
    intro he
    rw [he] at hjoin
    simp at hjoin

theorem names_join (h : IsName name) : names (join path name) = names path ++ [name] := by
  have hname : [name].filter (fun s => s != "" && s != ".") = [name] := by
    simp [h.ne_empty, h.ne_dot]
  by_cases hpath : path = ""
  · rw [hpath, join, isAbsolute_eq_false h]
    exact (congrArg (List.filter _) (segments_of_isName h)).trans hname
  · obtain ⟨before, hbefore, hjoin⟩ := exists_segments_join hpath h
    rw [names, names, hjoin, List.filter_append, hname]
    rcases hbefore with he | he
    · rw [he]
    · rw [he, List.filter_append]
      simp

end Segments

section Names

theorem splitName_eq (hstem : stem ≠ "") (hextension : '.' ∉ extension.toList) :
    splitName (stem ++ "." ++ extension) = (stem, some extension) := by
  have hbackwards : (stem ++ "." ++ extension).toList.reverse =
      extension.toList.reverse ++ '.' :: stem.toList.reverse := by
    simp
  have hall : ∀ c ∈ extension.toList.reverse, (c != '.') = true := by
    intro c hc
    exact bne_iff_ne.mpr fun e => hextension (e ▸ List.mem_reverse.mp hc)
  simp only [splitName]
  rw [hbackwards, List.dropWhile_append_of_pos hall, List.takeWhile_append_of_pos hall]
  cases hs : stem.toList.reverse with
  | nil => exact absurd (String.toList_eq_nil_iff.mp (List.reverse_eq_nil_iff.mp hs)) hstem
  | cons c cs =>
    have hcs : (c :: cs).reverse = stem.toList := by rw [← hs, List.reverse_reverse]
    simp [hcs]

theorem exists_splitName_eq (h : (splitName name).2 = some extension) :
    ∃ stem, name = stem ++ "." ++ extension ∧ stem ≠ "" ∧ '.' ∉ extension.toList := by
  simp only [splitName] at h
  split at h
  · cases h
  · cases h
  · rename_i c cs hcs hdrop
    have hc : c = '.' := by
      have hnot := List.head?_dropWhile_not (· != '.') name.toList.reverse
      rw [hdrop] at hnot
      simpa using hnot
    have hextension : extension.toList = (name.toList.reverse.takeWhile (· != '.')).reverse := by
      rw [← Option.some.inj h, String.toList_ofList]
    have hsplit := List.takeWhile_append_dropWhile (p := (· != '.')) (l := name.toList.reverse)
    have hname : name.toList = cs.reverse ++ '.' :: extension.toList := by
      rw [hdrop, hc] at hsplit
      calc name.toList
          = (name.toList.reverse.takeWhile (· != '.') ++ '.' :: cs).reverse := by
            rw [hsplit, List.reverse_reverse]
        _ = cs.reverse ++ '.' :: extension.toList := by
            rw [hextension]
            simp
    refine ⟨String.ofList cs.reverse, ?_, ?_, ?_⟩
    · rw [← String.toList_inj, hname]
      simp
    · intro he
      exact hcs (by simpa using congrArg String.toList he)
    · rw [hextension]
      intro hm
      have hdot := List.mem_takeWhile_imp (List.mem_reverse.mp hm)
      simp at hdot

theorem fileName?_join (h : IsName name) : fileName? (join path name) = some name := by
  rw [fileName?, names_join h, List.getLast?_concat]
  split
  · rename_i he
    exact absurd (Option.some.inj he) h.ne_dots
  · rfl

theorem stem?_join (h : IsName name) : stem? (join path name) = some (splitName name).1 := by
  rw [stem?, fileName?_join h, Option.map_some]

theorem extension?_join (h : IsName name) : extension? (join path name) = (splitName name).2 := by
  rw [extension?, fileName?_join h, Option.bind_some]

end Names

end Path

/-- The name of a feed file: a stem, a dot and one of the extensions of feeds, in any case. -/
def IsFeedName (stem name : String) : Prop :=
  ∃ extension, name = stem ++ "." ++ extension ∧ stem ≠ "" ∧ '.' ∉ extension.toList ∧
    (Text.sameAscii extension "jsonl" = true ∨ Text.sameAscii extension "ndjson" = true)

theorem any_feedExtensions (extension : String) :
    feedExtensions.any (Text.sameAscii extension) = true ↔
      Text.sameAscii extension "jsonl" = true ∨ Text.sameAscii extension "ndjson" = true := by
  simp [feedExtensions]

theorem isFeedPath_join {path name : String} (h : Path.IsName name) :
    isFeedPath (Path.join path name) = true ↔ ∃ stem, IsFeedName stem name := by
  rw [isFeedPath, Path.extension?_join h]
  constructor
  · intro hfeed
    split at hfeed
    · rename_i extension he
      obtain ⟨stem, hname, hstem, hdot⟩ := Path.exists_splitName_eq he
      exact ⟨stem, extension, hname, hstem, hdot, (any_feedExtensions extension).mp hfeed⟩
    · cases hfeed
  · rintro ⟨stem, extension, rfl, hstem, hdot, hext⟩
    rw [Path.splitName_eq hstem hdot]
    exact (any_feedExtensions extension).mpr hext

theorem IngestOptions.sourceOf_join {path name stem : String} (options : IngestOptions)
    (h : Path.IsName name) (hfeed : IsFeedName stem name) :
    options.sourceOf (Path.join path name) = some (options.defaultSource.getD stem) := by
  obtain ⟨extension, rfl, hstem, hdot, -⟩ := hfeed
  rw [sourceOf, Path.stem?_join h, Path.splitName_eq hstem hdot]
  cases options.defaultSource <;> rfl

end MusicIndex
