import MusicIndex.Proofs.DirectoryWalk
import MusicIndex.Proofs.FilePaths

namespace MusicIndex

namespace FileTree

theorem nodeAt?_append (names more : List String) (t : FileTree) :
    nodeAt? (names ++ more) t = (nodeAt? names t).bind (nodeAt? more) := by
  induction names generalizing t with
  | nil => rfl
  | cons name rest ih =>
    cases t with
    | directory entries =>
      rw [List.cons_append, nodeAt?, nodeAt?]
      cases entries.lookup name with
      | none => rfl
      | some t => exact ih t
    | file bytes => rfl
    | device => rfl

end FileTree

namespace Workspace

open FileTree MusicIndex.Path

variable {w : Workspace} {path name : String} {place names : List String} {t u : FileTree}

/-- The place that a path leads to, last name first. -/
def reach (w : Workspace) (path : String) : Except FileFault (List String) :=
  ((if isAbsolute path then [] else w.directory) ++ segments path).foldlM w.step []

theorem find_eq_ok (h : w.find path = .ok t) :
    path ≠ "" ∧ ∃ place, w.reach path = .ok place ∧ nodeAt? place.reverse w.root = some t := by
  unfold find at h
  cases hcheck : checkPath path with
  | error fault =>
    rw [hcheck] at h
    cases h
  | ok u =>
    rw [hcheck] at h
    by_cases hpath : path = ""
    · rw [hpath] at h
      cases h
    · refine ⟨hpath, ?_⟩
      have hlook : w.look ((if isAbsolute path then [] else w.directory) ++ segments path) =
          .ok t := by
        simp only [hpath, if_false] at h
        exact h
      unfold look at hlook
      cases hreach : w.reach path with
      | error fault =>
        rw [← reach, hreach] at hlook
        cases hlook
      | ok place =>
        rw [← reach, hreach] at hlook
        refine ⟨place, rfl, ?_⟩
        dsimp only [bind, Except.bind] at hlook
        split at hlook
        · rename_i hnode
          cases hlook
          exact hnode
        · cases hlook

theorem step_of_not_directory {fault : FileFault}
    (h : ∀ entries, nodeAt? place.reverse w.root ≠ some (.directory entries))
    (hfault : fault = if (nodeAt? place.reverse w.root).isSome then .notDirectory else .missing)
    (name : String) : w.step place name = .error fault := by
  unfold step
  split
  · rename_i entries hnode
    exact absurd hnode (h entries)
  · rename_i hnode
    simp [hfault, hnode]
  · rename_i hnode
    simp [hfault, hnode]

theorem step_empty_bind (w : Workspace) (place : List String) (name : String) :
    (w.step place "" >>= fun p => w.step p name) = w.step place name := by
  by_cases h : ∃ entries, nodeAt? place.reverse w.root = some (.directory entries)
  · obtain ⟨entries, hnode⟩ := h
    have hempty : w.step place "" = .ok place := by simp [step, hnode]
    rw [hempty]
    rfl
  · have hstep := step_of_not_directory (fun entries he => h ⟨entries, he⟩) rfl
    rw [hstep "", hstep name]
    rfl

theorem reach_join (hpath : path ≠ "") (h : IsName name) :
    w.reach (join path name) = w.reach path >>= fun place => w.step place name := by
  obtain ⟨before, hbefore, hjoin⟩ := exists_segments_join hpath h
  rw [reach, reach, isAbsolute_join hpath h, hjoin, ← List.append_assoc, List.foldlM_append]
  rcases hbefore with he | he
  · rw [he]
    simp
  · rw [he, ← List.append_assoc, List.foldlM_append]
    simp [step_empty_bind]

theorem reach_pathOf (hpath : path ≠ "") (hnames : ∀ n ∈ names, IsName n) :
    w.reach (pathOf path names) = w.reach path >>= fun place => names.foldlM w.step place := by
  induction names generalizing path with
  | nil => exact (bind_pure _).symm
  | cons name rest ih =>
    have hname := hnames name List.mem_cons_self
    have hrest := ih (@join_ne_empty path name hname) fun n hn =>
      hnames n (List.mem_cons_of_mem _ hn)
    change w.reach (pathOf (join path name) rest) = _
    rw [hrest, reach_join hpath hname, bind_assoc]
    rfl

theorem step_eq_ok {p : List String} {entries : List (String × FileTree)} (h : IsName name)
    (hplace : nodeAt? place.reverse w.root = some (.directory entries))
    (hstep : w.step place name = .ok p) : p = name :: place := by
  unfold step at hstep
  rw [hplace] at hstep
  simp only [h.ne_empty, h.ne_dot, h.ne_dots, or_self, if_false] at hstep
  unfold entry? at hstep
  split at hstep
  · cases hstep
  · cases hlookup : entries.lookup name with
    | none =>
      rw [hlookup] at hstep
      cases hstep
    | some t =>
      rw [hlookup] at hstep
      exact (Except.ok.inj hstep).symm

/-- Names lead through the entries of a directory to what the tree has under them. -/
theorem nodeAt?_of_steps {p : List String} (hnames : ∀ n ∈ names, IsName n)
    (hplace : nodeAt? place.reverse w.root = some t) (hnode : nodeAt? names t = some u)
    (hsteps : names.foldlM w.step place = .ok p) : nodeAt? p.reverse w.root = some u := by
  induction names generalizing place t with
  | nil =>
    cases hsteps
    exact hplace.trans hnode
  | cons name rest ih =>
    cases t with
    | file bytes => cases hnode
    | device => cases hnode
    | directory entries =>
      rw [List.foldlM_cons] at hsteps
      cases hstep : w.step place name with
      | error fault =>
        rw [hstep] at hsteps
        cases hsteps
      | ok q =>
        rw [hstep] at hsteps
        obtain ⟨v, hv, hrest⟩ := Option.bind_eq_some_iff.mp hnode
        have hq := step_eq_ok (hnames name List.mem_cons_self) hplace hstep
        have hvplace : nodeAt? q.reverse w.root = some v := by
          rw [hq, List.reverse_cons, nodeAt?_append, hplace, Option.bind_some, nodeAt?, hv]
          rfl
        exact ih (fun n hn => hnames n (List.mem_cons_of_mem _ hn)) hvplace hrest hsteps

/-- A file below a directory holds what it holds in the tree. -/
theorem read_pathOf {bytes content : List UInt8} (hfind : w.find path = .ok t)
    (hnames : ∀ n ∈ names, IsName n) (hnode : nodeAt? names t = some (.file bytes))
    (hread : w.read (pathOf path names) = .ok content) : content = bytes := by
  obtain ⟨hpath, place, hreach, hplace⟩ := find_eq_ok hfind
  unfold read at hread
  cases hfound : w.find (pathOf path names) with
  | error fault =>
    rw [hfound] at hread
    cases hread
  | ok v =>
    obtain ⟨-, p, hp, hpnode⟩ := find_eq_ok hfound
    rw [reach_pathOf hpath hnames, hreach] at hp
    have hv := hpnode.symm.trans (nodeAt?_of_steps hnames hplace hnode hp)
    rw [hfound, Option.some.inj hv] at hread
    exact (Except.ok.inj hread).symm

end Workspace

end MusicIndex
