import CallBridge.Proofs.Order
import CallBridge.Proofs.Run.Outputs

/-! # What discovery finds

Whether a file is found depends on its own path alone: on the directories between the base and the
file, on its name, on the outputs and on the patterns. Files stand in different places, so no path
is found twice, and the paths that are found increase strictly.
-/
namespace CallBridge

/-- The source that a file at a location is, if it is one under the settings. -/
def Settings.source? (s : Settings) (includes excludes : GlobSet) (l : Location) : Option Path :=
  if s.base.location.isPrefixOf l then
    let rest := l.drop s.base.location.length
    let p := s.base.extend rest
    let relative := (Path.below s.base p).text
    if !rest.dropLast.any isSkippedDirectory && (p.isSource && !s.resolvedOutputs.contains p &&
      includes.matches relative && !excludes.matches relative) then some p else none
  else none

section Discovery
variable {s : Settings} {t t' : FileTree} {files : List Path}

theorem visible_map_filter (t : FileTree) (base : Path) (take : Path → Bool) :
    ((t.visible base.location).map base.extend).filter take =
      t.files.filterMap fun e => if base.location.isPrefixOf e.1 then
        let rest := e.1.drop base.location.length
        if !rest.dropLast.any isSkippedDirectory && take (base.extend rest) then
          some (base.extend rest) else none
        else none := by
  rw [FileTree.visible, List.map_filterMap, List.filter_filterMap]
  refine List.filterMap_congr fun e _ => ?_
  dsimp only
  split_ifs with hprefix hskipped htake htake
  · simp [hskipped] at htake
  · rfl
  · simp_all
  · simp_all
  · rfl

theorem discover_eq_ok_iff :
    s.discover t = .ok files ↔ ∃ includes excludes, s.includeSet = .ok includes ∧
      s.excludeSet = .ok excludes ∧ t.reach s.base = .ok () ∧
      (t.files.filterMap fun e => s.source? includes excludes e.1).mergeSort Path.le = files := by
  unfold Settings.discover
  simp only [bind_eq_ok_iff]
  constructor
  · rintro ⟨includes, hincludes, excludes, hexcludes, h⟩
    refine ⟨includes, excludes, hincludes, hexcludes, ?_⟩
    split at h
    · cases h
    · next hreach =>
      refine ⟨hreach, ?_⟩
      rw [visible_map_filter] at h
      exact pure_eq_ok_iff.mp h
  · rintro ⟨includes, excludes, hincludes, hexcludes, hreach, rfl⟩
    refine ⟨includes, hincludes, excludes, hexcludes, ?_⟩
    rw [hreach]
    dsimp only
    rw [visible_map_filter]
    rfl

theorem source?_eq_some {includes excludes : GlobSet} {l : Location} {p : Path}
    (hbase : s.base.Located) (h : s.source? includes excludes l = some p) :
    p = .ofLocation l ∧ s.resolvedOutputs.contains p = false := by
  unfold Settings.source? at h
  split_ifs at h with hprefix
  dsimp only at h
  split_ifs at h with htake
  obtain rfl := Option.some.inj h
  simp only [Bool.and_eq_true, Bool.not_eq_true'] at htake
  refine ⟨?_, htake.2.1.1.2⟩
  obtain ⟨rest, hrest⟩ := List.isPrefixOf_iff_prefix.mp hprefix
  rw [hbase.eq, Path.extend_ofLocation hbase.named, Path.location_ofLocation hbase.named, ← hrest,
    List.drop_left]

theorem reach_iff {p : Path} (hp : p.Located) :
    t.reach p = .ok () ↔ ∃ e, t.get? p.location = some e := by
  rw [hp.eq, FileTree.reach, bind_eq_ok_iff, Path.location_ofLocation hp.named]
  constructor
  · rintro ⟨l, hl, h⟩
    obtain rfl := FileTree.locate_ofLocation_eq_ok hp.named hl
    split at h
    · next e he => exact ⟨e, he⟩
    · cases h
  · rintro ⟨e, he⟩
    refine ⟨_, FileTree.locate_ofLocation hp.named (FileTree.get?_dropLast he), ?_⟩
    rw [he]
    rfl

theorem of_mem_discover (hs : s.Ready) (h : s.discover t = .ok files) {p : Path} (hp : p ∈ files) :
    p.Located ∧ (∃ bytes, t.get? p.location = some (.file bytes)) ∧
      s.resolvedOutputs.contains p = false := by
  obtain ⟨includes, excludes, -, -, -, rfl⟩ := discover_eq_ok_iff.mp h
  rw [List.mem_mergeSort] at hp
  obtain ⟨⟨l, bytes⟩, he, hsource⟩ := List.mem_filterMap.mp hp
  have hfile := FileTree.mem_files_iff.mp he
  have hl := FileTree.isFileName_of_get? hfile
  obtain ⟨rfl, houtput⟩ := source?_eq_some hs.located_base hsource
  refine ⟨Path.located_ofLocation hl, ⟨bytes, ?_⟩, houtput⟩
  rw [Path.location_ofLocation hl]
  exact hfile

end Discovery

theorem FileTree.nodup_files (t : FileTree) : (t.files.map Prod.fst).Nodup := by
  have hfiles : t.files.map Prod.fst = (t.entries.filter fun e => e.2 ≠ .directory).map Prod.fst := by
    rw [files, List.map_filterMap, ← List.filterMap_eq_map, List.filterMap_filter]
    refine List.filterMap_congr fun e _ => ?_
    cases e with
    | mk l e => cases e <;> rfl
  rw [hfiles]
  exact t.distinct.sublist (List.filter_sublist.map _)

section Exact
variable {s : Settings} {t : FileTree}

/-- The path of a file below a directory is read from there as the names between them. -/
theorem Path.text_below {base rest : Location} (h : ∀ n ∈ base ++ rest, isFileName n = true) :
    (below (.ofLocation base) (.ofLocation (base ++ rest))).text = "/".intercalate rest := by
  have hbase : ∀ n ∈ base, isFileName n = true := fun n hn => h n (List.mem_append_left _ hn)
  have hcomponents : Component.root :: (base ++ rest).map Component.normal =
      (Component.root :: base.map Component.normal) ++ rest.map Component.normal := by simp
  have hnames : (rest.map Component.normal).map Component.text = rest := by
    rw [List.map_map]
    exact List.map_id _
  have hprefix := List.isPrefixOf_iff_prefix.mpr (List.prefix_append
    (Component.root :: base.map Component.normal) (rest.map Component.normal))
  rw [below, components_ofLocation h, components_ofLocation hbase, hcomponents]
  rw [if_pos hprefix, List.drop_left, text_ofComponents, hnames]
  intro c hc
  obtain ⟨n, hn, rfl⟩ := List.mem_map.mp hc
  exact .inr ⟨n, h n (List.mem_append_right _ hn), rfl⟩

theorem source?_eq_some_iff (hs : s.base.Located) {includes excludes : GlobSet} {l : Location}
    (hl : ∀ n ∈ l, isFileName n = true) {p : Path} :
    s.source? includes excludes l = some p ↔
      ∃ rest, l = s.base.location ++ rest ∧ p = .ofLocation l ∧
        (∀ n ∈ rest.dropLast, n.startsWith "." = false ∧ n ≠ "node_modules") ∧
        p.isSource = true ∧ (∀ o ∈ s.resolvedOutputs.named, o.2.same p = false) ∧
        includes.matches ("/".intercalate rest) = true ∧
        excludes.matches ("/".intercalate rest) = false := by
  by_cases hprefix : s.base.location <+: l
  · obtain ⟨rest, rfl⟩ := hprefix
    have hextend : s.base.extend rest = .ofLocation (s.base.location ++ rest) := by
      conv_lhs => rw [hs.eq, Path.extend_ofLocation hs.named]
    have htext : (Path.below s.base (.ofLocation (s.base.location ++ rest))).text =
        "/".intercalate rest := by
      conv_lhs => rw [hs.eq, Path.location_ofLocation hs.named]
      exact Path.text_below hl
    have hshown : (rest.dropLast.any isSkippedDirectory) = false ↔
        ∀ n ∈ rest.dropLast, n.startsWith "." = false ∧ n ≠ "node_modules" := by
      simp [isSkippedDirectory]
    have houtputs : s.resolvedOutputs.contains (.ofLocation (s.base.location ++ rest)) = false ↔
        ∀ o ∈ s.resolvedOutputs.named,
          o.2.same (.ofLocation (s.base.location ++ rest)) = false := by
      simp [Generated.Outputs.contains]
    unfold Settings.source?
    rw [if_pos (List.isPrefixOf_iff_prefix.mpr (List.prefix_append _ _)), List.drop_left]
    dsimp only
    rw [hextend, htext, Option.ite_none_right_eq_some]
    simp only [Bool.and_eq_true, Bool.not_eq_true', hshown, houtputs, Option.some.injEq,
      List.append_cancel_left_eq]
    constructor
    · rintro ⟨⟨hvisible, ⟨⟨hsource, hnew⟩, hincluded⟩, hexcluded⟩, rfl⟩
      exact ⟨rest, rfl, rfl, hvisible, hsource, hnew, hincluded, hexcluded⟩
    · rintro ⟨rest', rfl, rfl, hvisible, hsource, hnew, hincluded, hexcluded⟩
      exact ⟨⟨hvisible, ⟨⟨hsource, hnew⟩, hincluded⟩, hexcluded⟩, rfl⟩
  · refine iff_of_false ?_ ?_
    · unfold Settings.source?
      rw [if_neg fun h => hprefix (List.isPrefixOf_iff_prefix.mp h)]
      exact nofun
    · rintro ⟨rest, rfl, -⟩
      exact hprefix (List.prefix_append _ _)

theorem of_mem_files {e : Location × ByteArray} (he : e ∈ t.files) :
    ∀ n ∈ e.1, isFileName n = true :=
  FileTree.isFileName_of_get? (FileTree.mem_files_iff.mp he)

/-- Sources are put in order by their steps, and none is found twice. -/
theorem sources_increasing (hs : s.base.Located) (includes excludes : GlobSet) :
    ((t.files.filterMap fun e => s.source? includes excludes e.1).mergeSort Path.le).Pairwise
      fun p q => p.compare q = .lt := by
  refine mergeSort_increasing (fun _ _ => rfl) (List.pairwise_filterMap.mpr ?_)
  refine (List.pairwise_map.mp t.nodup_files).imp_of_mem fun {a b} ha hb hne p hp q hq => ?_
  obtain ⟨rfl, -⟩ := source?_eq_some hs hp
  obtain ⟨rfl, -⟩ := source?_eq_some hs hq
  rw [ne_eq, ← Path.same_iff_compare, Path.same_ofLocation_iff (of_mem_files ha) (of_mem_files hb)]
  exact hne

end Exact

/-- Below a base directory that exists, valid settings find exactly the source files that no output
is, that stand in no hidden or package directory below the base, and that an include pattern matches
and no exclude pattern does. They are found in the order of their steps, each once. -/
theorem discover_exact {s : Settings} (hs : s.Ready) {t : FileTree}
    (hbase : t.get? s.base.location = some .directory) :
    ∃ includes excludes files, s.includeSet = .ok includes ∧ s.excludeSet = .ok excludes ∧
      s.discover t = .ok files ∧ files.Pairwise (fun p q => p.compare q = .lt) ∧
      ∀ p, p ∈ files ↔ ∃ rest bytes, p = .ofLocation (s.base.location ++ rest) ∧
        t.get? (s.base.location ++ rest) = some (.file bytes) ∧
        (∀ n ∈ rest.dropLast, n.startsWith "." = false ∧ n ≠ "node_modules") ∧
        p.isSource = true ∧ (∀ o ∈ s.resolvedOutputs.named, o.2.same p = false) ∧
        includes.matches ("/".intercalate rest) = true ∧
        excludes.matches ("/".intercalate rest) = false := by
  have hlocated := hs.located_base
  obtain ⟨includes, excludes, hincludes, hexcludes⟩ := Settings.exists_globs hs.valid
  refine ⟨includes, excludes, _, hincludes, hexcludes, discover_eq_ok_iff.mpr ⟨includes, excludes,
    hincludes, hexcludes, (reach_iff hlocated).mpr ⟨_, hbase⟩, rfl⟩,
    sources_increasing hlocated includes excludes, fun p => ?_⟩
  rw [List.mem_mergeSort, List.mem_filterMap]
  constructor
  · rintro ⟨e, he, hsource⟩
    obtain ⟨rest, hl, hp, hkept⟩ := (source?_eq_some_iff hlocated (of_mem_files he)).mp hsource
    refine ⟨rest, e.2, hl ▸ hp, ?_, hkept⟩
    rw [← hl]
    exact FileTree.mem_files_iff.mp he
  · rintro ⟨rest, bytes, hp, hfile, hkept⟩
    have he := FileTree.mem_files_iff.mpr hfile
    exact ⟨_, he, (source?_eq_some_iff hlocated (of_mem_files he)).mpr ⟨rest, rfl, hp, hkept⟩⟩

/-- A project with one source, and files beside it that are none. -/
def crowdedTree : FileTree where
  entries := [(["work"], .directory), (["work", "nested"], .directory),
    (["work", ".cache"], .directory), (["work", "node_modules"], .directory),
    (["work", "nested", "a.ts"], .file .empty), (["work", ".cache", "b.ts"], .file .empty),
    (["work", "node_modules", "c.ts"], .file .empty), (["work", "main.ts"], .file .empty),
    (["work", "view.d.ts"], .file .empty), (["work", "notes.txt"], .file .empty)]
  distinct := by decide +kernel
  named := by decide +kernel
  rooted := by decide +kernel

theorem crowded_discover_exact :
    Settings.flat.Ready ∧ crowdedTree.get? Settings.flat.base.location = some .directory ∧
      ∃ files, Settings.flat.discover crowdedTree = .ok files ∧
        files = [⟨"/work/nested/a.ts"⟩] ∧ files.Pairwise fun p q => p.compare q = .lt := by
  have hbase : crowdedTree.get? Settings.flat.base.location = some .directory := by decide +kernel
  obtain ⟨-, -, files, -, -, hfound, hincreasing, -⟩ := discover_exact Settings.ready_flat hbase
  have hfiles : Settings.flat.discover crowdedTree = .ok [⟨"/work/nested/a.ts"⟩] := by
    decide +kernel
  exact ⟨Settings.ready_flat, hbase, files, hfound, Except.ok.inj (hfound.symm.trans hfiles),
    hincreasing⟩

end CallBridge
