import Mathlib.Algebra.GroupWithZero.Nat
import MusicIndex.Proofs.FeedRun
import MusicIndex.Proofs.FileLookup

namespace MusicIndex

open FileTree (nodeAt? named pathOf)

/-- Names lead from a directory to a feed file. -/
def FeedAt (entries : List (String × FileTree)) (names : List String) : Prop :=
  ∃ bytes dirs stem name, nodeAt? names (.directory entries) = some (.file bytes) ∧
    names = dirs ++ [name] ∧ IsFeedName stem name

namespace IngestSummary

def total (reports : List IngestSummary) : IngestSummary where
  files := (reports.map (·.files)).sum
  records := (reports.map (·.records)).sum
  links := (reports.map (·.links)).sum
  skipped := (reports.map (·.skipped)).sum
  failures := reports.flatMap (·.failures)

theorem foldl_absorb (summary : IngestSummary) (reports : List IngestSummary) :
    reports.foldl absorb summary = summary.absorb (total reports) := by
  induction reports generalizing summary with
  | nil => simp [absorb, total]
  | cons report rest ih =>
    rw [List.foldl_cons, ih]
    simp [absorb, total, Nat.add_assoc]

end IngestSummary

namespace Index

variable [Json.Places]

/-- Files are ingested one after the other, each of them with success. -/
inductive Ingests (w : Workspace) (options : IngestOptions) :
    Index → List String → List IngestSummary → Index → Prop where
  | nil (x : Index) : Ingests w options x [] [] x
  | cons {x y z : Index} {path : String} {summary : IngestSummary} {paths : List String}
    {reports : List IngestSummary} : ingestFile w options path x = (.ok summary, y) →
    Ingests w options y paths reports z →
    Ingests w options x (path :: paths) (summary :: reports) z

variable {w : Workspace} {options : IngestOptions} {x y : Index}

theorem files_of_ingestContent {path : String} {content : Except FileFault (List UInt8)}
    {summary : IngestSummary} (h : ingestContent options path content x = (.ok summary, y)) :
    summary.files = 1 := by
  unfold ingestContent at h
  split at h
  · cases h
  · cases h
  · split at h
    · cases h
      rfl
    · cases h

theorem Ingests.files {paths : List String} {reports : List IngestSummary}
    (h : Ingests w options x paths reports y) :
    (IngestSummary.total reports).files = paths.length := by
  induction h with
  | nil x => rfl
  | cons hfile _ ih =>
    simp only [IngestSummary.total, List.map_cons, List.sum_cons, List.length_cons] at ih ⊢
    rw [ih, files_of_ingestContent hfile, Nat.add_comm]

theorem ingestAll_cases {feeds : List (String × List UInt8)}
    (hread : ∀ feed ∈ feeds, w.read feed.1 = .ok feed.2) (options : IngestOptions)
    (summary : IngestSummary) (x : Index) :
    (∃ reports y, Ingests w options x (feeds.map (·.1)) reports y ∧
      ingestAll options feeds summary x = (.ok (reports.foldl IngestSummary.absorb summary), y)) ∨
    ∃ before path after reports y e z, feeds.map (·.1) = before ++ path :: after ∧
      Ingests w options x before reports y ∧ ingestFile w options path y = (.error e, z) ∧
      ingestAll options feeds summary x = (.error e, z) := by
  induction feeds generalizing summary x with
  | nil => exact .inl ⟨[], x, .nil x, rfl⟩
  | cons feed rest ih =>
    obtain ⟨path, bytes⟩ := feed
    have hfile : ingestFile w options path x = ingestContent options path (.ok bytes) x := by
      rw [ingestFile, hread _ List.mem_cons_self]
    cases hresult : ingestContent options path (.ok bytes) x with
    | mk result y =>
      rw [hresult] at hfile
      rw [ingestAll, hresult]
      cases result with
      | error e => exact .inr ⟨[], path, rest.map (·.1), [], x, e, y, rfl, .nil x, hfile, rfl⟩
      | ok report =>
        rcases ih (fun feed hfeed => hread feed (List.mem_cons_of_mem _ hfeed))
          (summary.absorb report) y with ⟨reports, z, hruns, hall⟩ |
            ⟨before, path', after, reports, z, e, z', hsplit, hruns, herror, hall⟩
        · exact .inl ⟨report :: reports, z, .cons hfile hruns, hall⟩
        · refine .inr ⟨path :: before, path', after, report :: reports, z, e, z', ?_,
            .cons hfile hruns, herror, hall⟩
          rw [List.map_cons, hsplit, List.cons_append]

end Index

section Feeds

variable {path : String} {entries : List (String × FileTree)} {names : List String}

/-- The names that lead to the feed files below a directory, in the order of the walk. -/
def feedNames (path : String) (entries : List (String × FileTree)) : List (List String) :=
  ((named (.directory entries)).filter fun f => isFeedPath (pathOf path f.1)).map (·.1)

theorem sorted_feedNames (path : String) (entries : List (String × FileTree)) :
    (feedNames path entries).Pairwise (· < ·) :=
  (FileTree.sorted_named _).sublist (List.filter_sublist.map _)

theorem feedsAmong_eq_map (path : String) (entries : List (String × FileTree)) :
    feedsAmong path entries =
      ((named (.directory entries)).filter fun f => isFeedPath (pathOf path f.1)).map
        fun f => (pathOf path f.1, f.2) := by
  rw [feedsAmong, FileTree.filesAmong, FileTree.filesBelow_eq_map, List.filter_map]
  rfl

theorem map_feedsAmong (path : String) (entries : List (String × FileTree)) :
    (feedsAmong path entries).map (·.1) = (feedNames path entries).map (pathOf path) := by
  rw [feedsAmong_eq_map, feedNames, List.map_map, List.map_map]
  rfl

theorem isFeedPath_pathOf {name : String} (dirs : List String) (h : Path.IsName name) :
    isFeedPath (pathOf path (dirs ++ [name])) = true ↔ ∃ stem, IsFeedName stem name := by
  rw [pathOf, List.foldl_append]
  exact isFeedPath_join h

theorem mem_feedNames (hnames : ∀ names bytes, nodeAt? names (.directory entries) =
    some (.file bytes) → ∀ name ∈ names, Path.IsName name) :
    names ∈ feedNames path entries ↔ FeedAt entries names := by
  constructor
  · intro hmem
    obtain ⟨f, hf, rfl⟩ := List.mem_map.mp hmem
    obtain ⟨hfile, hfeed⟩ := List.mem_filter.mp hf
    have hnode := FileTree.mem_named.mp hfile
    rcases List.eq_nil_or_concat f.1 with hnil | ⟨dirs, name, hconcat⟩
    · rw [hnil] at hnode
      cases hnode
    · rw [List.concat_eq_append] at hconcat
      have hname : Path.IsName name := hnames f.1 f.2 hnode name (by simp [hconcat])
      rw [hconcat] at hfeed
      obtain ⟨stem, hstem⟩ := (isFeedPath_pathOf dirs hname).mp hfeed
      exact ⟨f.2, dirs, stem, name, hnode, hconcat, hstem⟩
  · rintro ⟨bytes, dirs, stem, name, hnode, rfl, hstem⟩
    have hname : Path.IsName name := hnames _ bytes hnode name (by simp)
    have hfeed : isFeedPath (pathOf path (dirs ++ [name])) = true :=
      (isFeedPath_pathOf dirs hname).mpr ⟨stem, hstem⟩
    exact List.mem_map.mpr ⟨_, List.mem_filter.mpr ⟨FileTree.mem_named.mpr hnode, hfeed⟩, rfl⟩

end Feeds

section Attribution

variable [Json.Places]

theorem source?_lineCall? {source : String} {line : List UInt8} {fact : FeedFact}
    (h : FeedEntry.ofLine line = .ok (some ⟨fact, none⟩)) :
    ∃ c, lineCall? source line = some c ∧ c.source? = some source := by
  rw [lineCall?, h]
  cases fact with
  | record record identifier => exact ⟨_, rfl, rfl⟩
  | link link => exact ⟨_, rfl, rfl⟩

theorem ingestFile_of_isFeedName {w : Workspace} {path stem name : String} {dirs : List String}
    {bytes : List UInt8} (hname : Path.IsName name) (hstem : IsFeedName stem name)
    (hread : w.read (pathOf path (dirs ++ [name])) = .ok bytes) (options : IngestOptions)
    (x : Index) :
    let file := pathOf path (dirs ++ [name])
    let run := Index.ingest ⟨file, options.defaultSource.getD stem, options.failFast⟩ bytes x
    Index.ingestFile w options file x =
      (run.1.map fun summary => { summary with files := 1 }, run.2) := by
  intro file run
  have hsource : options.sourceOf file = some (options.defaultSource.getD stem) := by
    rw [show file = Path.join (pathOf path dirs) name from List.foldl_append]
    exact options.sourceOf_join hname hstem
  have hcontent : w.read file = .ok bytes := hread
  simp only [Index.ingestFile, hcontent, Index.ingestContent, hsource, run]
  rcases Index.ingest ⟨file, options.defaultSource.getD stem, options.failFast⟩ bytes x
    with ⟨_ | _, _⟩ <;> rfl

end Attribution

/-- The feed files below a directory are ingested in the order of the names that lead to them,
each of them once and no other file, until one of them fails; what the files before it did stays.
Where none fails, the counts are the sums of theirs and the failures are theirs, one after the
other. A file makes the calls on its lines, up to the one that ends it if there is one; those that
name no source are of the given one, or else of the stem of the file. -/
theorem directory_is_its_feed_files [Json.Places] {w : Workspace} {path : String}
    {entries : List (String × FileTree)} (hfind : w.find path = .ok (.directory entries))
    (hnames : ∀ names bytes, nodeAt? names (.directory entries) = some (.file bytes) →
      ∀ name ∈ names, Path.IsName name)
    (hread : ∀ names, FeedAt entries names → ∃ bytes, w.read (pathOf path names) = .ok bytes)
    (options : IngestOptions) (x : Index) :
    ∃ visited : List (List String),
      (∀ names, names ∈ visited ↔ FeedAt entries names) ∧ visited.Pairwise (· < ·) ∧
      ((∃ reports y, Index.Ingests w options x (visited.map (pathOf path)) reports y ∧
        Index.ingestPath w options path x =
          (.ok { IngestSummary.total reports with files := visited.length }, y)) ∨
        ∃ before names after reports y e z, visited = before ++ names :: after ∧
          Index.Ingests w options x (before.map (pathOf path)) reports y ∧
          Index.ingestFile w options (pathOf path names) y = (.error e, z) ∧
          Index.ingestPath w options path x = (.error e, z)) ∧
      ∀ dirs stem name, dirs ++ [name] ∈ visited → IsFeedName stem name →
        let file := pathOf path (dirs ++ [name])
        let source := options.defaultSource.getD stem
        ∃ bytes, w.read file = .ok bytes ∧
          nodeAt? (dirs ++ [name]) (.directory entries) = some (.file bytes) ∧
          (∀ line fact, FeedEntry.ofLine line = .ok (some ⟨fact, none⟩) →
            ∃ c, lineCall? source line = some c ∧ c.source? = some source) ∧
          ∀ y, let run := Index.ingest ⟨file, source, options.failFast⟩ bytes y
            Index.ingestFile w options file y =
              (run.1.map fun summary => { summary with files := 1 }, run.2) ∧
            ∃ reached, reached <+: feedLines bytes ∧
              ((∃ s, run.1 = .ok s) → reached = feedLines bytes) ∧
              (∀ number message, run.1 = .error (.entry file number message) →
                reached.length = number) ∧
              run.2 = y.after (reached.filterMap (lineCall? source)) := by
  have hbytes {names : List String} {bytes : List UInt8} (hfeed : FeedAt entries names)
      (hnode : nodeAt? names (.directory entries) = some (.file bytes)) :
      w.read (pathOf path names) = .ok bytes := by
    obtain ⟨content, hcontent⟩ := hread names hfeed
    rw [hcontent, Workspace.read_pathOf hfind (hnames names bytes hnode) hnode hcontent]
  have hfeeds : ∀ feed ∈ feedsAmong path entries, w.read feed.1 = .ok feed.2 := by
    intro feed hfeed
    rw [feedsAmong_eq_map] at hfeed
    obtain ⟨f, hf, rfl⟩ := List.mem_map.mp hfeed
    exact hbytes ((mem_feedNames hnames).mp (List.mem_map.mpr ⟨f, hf, rfl⟩))
      (FileTree.mem_named.mp (List.mem_filter.mp hf).1)
  have hrun : Index.ingestPath w options path x =
      Index.ingestAll options (feedsAmong path entries) .empty x := by
    rw [Index.ingestPath, hfind]
  have hempty (summary : IngestSummary) : IngestSummary.empty.absorb summary = summary := by
    simp [IngestSummary.absorb, IngestSummary.empty]
  refine ⟨feedNames path entries, fun names => mem_feedNames hnames,
    sorted_feedNames path entries, ?_, ?_⟩
  · have hcases := Index.ingestAll_cases hfeeds options .empty x
    rw [map_feedsAmong, ← hrun] at hcases
    rcases hcases with ⟨reports, y, hruns, hall⟩ |
      ⟨before, file, after, reports, y, e, z, hsplit, hruns, herror, hall⟩
    · refine .inl ⟨reports, y, hruns, ?_⟩
      have hlength := hruns.files
      rw [List.length_map] at hlength
      rw [hall, IngestSummary.foldl_absorb, hempty, ← hlength]
    · obtain ⟨first, rest, hvisited, rfl, hrest⟩ := List.map_eq_append_iff.mp hsplit
      obtain ⟨names, last, rfl, rfl, -⟩ := List.map_eq_cons_iff.mp hrest
      exact .inr ⟨first, names, last, reports, y, e, z, hvisited, hruns, herror, hall⟩
  · intro dirs stem name hvisited hstem file source
    obtain ⟨bytes, dirs', stem', name', hnode, -⟩ := (mem_feedNames hnames).mp hvisited
    have hname : Path.IsName name := hnames _ bytes hnode name (by simp)
    have hcontent : w.read file = .ok bytes :=
      hbytes ⟨bytes, dirs, stem, name, hnode, rfl, hstem⟩ hnode
    refine ⟨bytes, hcontent, hnode, fun _ _ => source?_lineCall?, fun y => ?_⟩
    have hindex := Index.ingest_eq_after ⟨file, source, options.failFast⟩ bytes y
    obtain ⟨reached, hprefix, hcalls, hall, hlast⟩ := Index.exists_reached
      ⟨file, source, options.failFast⟩ 1 .empty (feedLines bytes) y
    rw [Index.ingestCalls, hcalls] at hindex
    refine ⟨ingestFile_of_isFeedName hname hstem hcontent options y, reached, hprefix,
      fun ⟨s, hs⟩ => hall s hs, fun number message he => ?_, hindex⟩
    have hnumber : number + 1 = 1 + reached.length := hlast file number message he
    omega

/-- The files of a directory come before those whose names go on with a dot, whatever the order of
the entries; a name that is nothing but an extension is passed over. Each file has a source of its
own, and with it a record of its own. -/
theorem four_files_three_feeds :
    let bo := r#"[["performer","Bo"],["isni","5"],null,null]"#.toUTF8.toList
    let inner : FileTree := .directory [("z.JSONL", .file bo), ("notes.txt", .file [255])]
    let entries := [("a.ndjson", .file bo), (".jsonl", .file [255]), ("a", inner),
      ("0.jsonl", .file bo)]
    let w : Workspace := ⟨.directory [("feeds", .directory entries)], []⟩
    let options : IngestOptions := ⟨none, true⟩
    let run := Index.ingestPath w options "/feeds" .empty
    ∃ visited : List (List String), visited.Pairwise (· < ·) ∧ ["a", "z.JSONL"] ∈ visited ∧
      ["a.ndjson"] ∈ visited ∧ [".jsonl"] ∉ visited ∧
      (run.1.map fun s => (s.files, s.records, s.links)) = .ok (visited.length, 3, 0) ∧
      run.2.sources.contents = ["0", "z", "a"] ∧
      (run.2.records .performer).contents = [⟨["Bo"], 1⟩, ⟨["Bo"], 2⟩, ⟨["Bo"], 3⟩] ∧
      (Index.ingestFile w options "/feeds/a/z.JSONL" .empty).2 =
        Index.empty.after [.createRecord ⟨.performer, ⟨["Bo"], rfl⟩⟩ ⟨"isni", "5"⟩ "z"] := by
  intro bo inner entries w options run
  have hnames : ∀ f ∈ named (.directory entries), ∀ name ∈ f.1, Path.IsName name := by
    decide +kernel
  have hread : ∀ f ∈ named (.directory entries),
      (w.read (pathOf "/feeds" f.1)).toOption = some f.2 := by
    decide +kernel
  have hok (names : List String) (hfeed : FeedAt entries names) :
      ∃ bytes, w.read (pathOf "/feeds" names) = .ok bytes := by
    obtain ⟨bytes, -, -, -, hnode, -⟩ := hfeed
    have hsome := hread _ (FileTree.mem_named.mpr hnode)
    cases hresult : w.read (pathOf "/feeds" names) with
    | ok content => exact ⟨content, rfl⟩
    | error fault => rw [hresult] at hsome; cases hsome
  obtain ⟨visited, hvisited, hsorted, hruns, hfiles⟩ := directory_is_its_feed_files
    (show w.find "/feeds" = .ok (.directory entries) from rfl)
    (fun names bytes hnode => hnames _ (FileTree.mem_named.mpr hnode)) hok options .empty
  have hz : IsFeedName "z" "z.JSONL" := ⟨"JSONL", by decide⟩
  have hmem : ["a", "z.JSONL"] ∈ visited :=
    (hvisited _).mpr ⟨bo, ["a"], "z", "z.JSONL", rfl, rfl, hz⟩
  refine ⟨visited, hsorted, hmem, (hvisited _).mpr ?_, ?_, ?_, by decide +kernel,
    by decide +kernel, ?_⟩
  · exact ⟨bo, [], "a", "a.ndjson", rfl, rfl, "ndjson", by decide⟩
  · intro hmem
    obtain ⟨bytes, dirs, stem, name, -, hconcat, hname⟩ := (hvisited _).mp hmem
    obtain ⟨-, rfl⟩ : [] = dirs ∧ ".jsonl" = name := by
      simpa using List.append_inj' (show [] ++ [".jsonl"] = dirs ++ [name] from hconcat) rfl
    obtain ⟨extension, he, hstem, hdot, -⟩ := hname
    have hsplit := Path.splitName_eq hstem hdot
    rw [← he] at hsplit
    have hnone : (Path.splitName ".jsonl").2 = none := by decide
    rw [hsplit] at hnone
    cases hnone
  · have hcounts : (run.1.map fun s => (s.files, s.records, s.links)).toOption =
        some (3, 3, 0) := by
      decide +kernel
    rcases hruns with ⟨reports, y, -, hall⟩ | ⟨_, _, _, _, _, e, z, -, -, -, hall⟩
    · have hrun : run = _ := hall
      rw [hrun] at hcounts ⊢
      obtain ⟨hlength, hrecords, hlinks⟩ : visited.length = 3 ∧
          (IngestSummary.total reports).records = 3 ∧ (IngestSummary.total reports).links = 0 := by
        simpa [Except.toOption, Except.map] using hcounts
      simp [Except.map, hrecords, hlinks]
    · have hrun : run = _ := hall
      rw [hrun] at hcounts
      cases hcounts
  · obtain ⟨bytes, -, hnode, -, hrun⟩ := hfiles ["a"] "z" "z.JSONL" hmem hz
    obtain rfl : bo = bytes := by
      cases hnode
      rfl
    obtain ⟨hfile, reached, -, hall, -, hindex⟩ := hrun .empty
    have hended : ∃ s, (Index.ingest ⟨"/feeds/a/z.JSONL", "z", true⟩ bo .empty).1 = .ok s := by
      have hok : (Index.ingest ⟨"/feeds/a/z.JSONL", "z", true⟩ bo .empty).1.isOk = true := by
        decide +kernel
      cases hresult : (Index.ingest ⟨"/feeds/a/z.JSONL", "z", true⟩ bo .empty).1 with
      | ok summary => exact ⟨summary, rfl⟩
      | error e => rw [hresult] at hok; cases hok
    have hlines : feedLines bo = [bo] := by decide +kernel
    have hentry : FeedEntry.ofLine bo =
        .ok (some ⟨.record ⟨.performer, ⟨["Bo"], rfl⟩⟩ ⟨"isni", "5"⟩, none⟩) := by
      decide +kernel
    have hcalls : reached.filterMap (lineCall? "z") =
        [.createRecord ⟨.performer, ⟨["Bo"], rfl⟩⟩ ⟨"isni", "5"⟩ "z"] := by
      rw [hall hended, hlines, List.filterMap_cons, lineCall?, hentry]
      rfl
    exact ((congrArg Prod.snd hfile).trans hindex).trans (congrArg Index.empty.after hcalls)

end MusicIndex
