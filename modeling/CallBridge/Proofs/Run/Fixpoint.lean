import CallBridge.Proofs.Run.Atomicity
import CallBridge.Proofs.Run.Discovery

/-! # Running again

A run that succeeds leaves what the next run reads as it was: the same sources are found, as an
output is no source, and each of them reads the same. So the next run makes the same texts, finds
them in their places, and changes nothing.
-/
namespace CallBridge

section Again
variable {s : Settings} {d d' : Disk} {files : List Path} {t : Generated.Texts}

theorem named_eq (s : Settings) (t : Generated.Texts) :
    s.resolvedOutputs.named = (s.outputsWith t).map fun o => (o.name, o.path) :=
  rfl

theorem contains_iff (hs : s.Ready) (t : Generated.Texts) {p : Path} (hp : p.Located) :
    s.resolvedOutputs.contains p = true ↔
      p.location ∈ (s.outputsWith t).map fun o => o.path.location := by
  rw [Generated.Outputs.contains, named_eq s t, List.any_map, List.any_eq_true, List.mem_map]
  constructor
  · rintro ⟨o, ho, h⟩
    exact ⟨o, ho, ((hs.located_of_mem t o ho).same_iff hp).mp h⟩
  · rintro ⟨o, ho, h⟩
    exact ⟨o, ho, ((hs.located_of_mem t o ho).same_iff hp).mpr h⟩

/-- Files that are no outputs are found again, whatever was written. -/
theorem discover_of_holds (hs : s.Ready) (h : d.Holds d' (s.outputsWith t))
    (hfound : s.discover d.tree = .ok files) : s.discover d'.tree = .ok files := by
  obtain ⟨includes, excludes, hincludes, hexcludes, hreach, rfl⟩ := discover_eq_ok_iff.mp hfound
  refine discover_eq_ok_iff.mpr ⟨includes, excludes, hincludes, hexcludes, ?_, ?_⟩
  · rw [reach_iff hs.located_base] at hreach ⊢
    obtain ⟨e, he⟩ := hreach
    cases e with
    | directory => exact ⟨_, h.changed.tree.directories _ he⟩
    | file bytes =>
      by_cases hmem : s.base.location ∈ (s.outputsWith t).map fun o => o.path.location
      · obtain ⟨o, ho, hlocation⟩ := List.mem_map.mp hmem
        exact ⟨_, hlocation ▸ h.held o ho⟩
      · exact ⟨_, (h.changed.tree.get?_eq_file_iff hmem).mpr he⟩
  · have hkept : ∀ u : FileTree, (u.files.filterMap fun e => s.source? includes excludes e.1) =
        (u.files.filter fun e => e.1 ∉ (s.outputsWith t).map fun o => o.path.location).filterMap
          fun e => s.source? includes excludes e.1 := by
      intro u
      rw [List.filterMap_filter]
      refine List.filterMap_congr fun e he => ?_
      split_ifs with hnew
      · rfl
      · by_contra hsome
        obtain ⟨p, hp⟩ := Option.ne_none_iff_exists'.mp hsome
        obtain ⟨rfl, houtput⟩ := source?_eq_some hs.located_base hp
        have hl := FileTree.isFileName_of_get? (FileTree.mem_files_iff.mp he)
        rw [← Bool.not_eq_true, contains_iff hs t (Path.located_ofLocation hl),
          Path.location_ofLocation hl] at houtput
        simp only [decide_eq_true_eq, not_not] at hnew
        exact houtput hnew
    rw [hkept d'.tree, hkept d.tree, h.changed.tree.files]

/-- What may be read does not depend on the outputs, and the outputs may be read. -/
structure Disk.Readable (d : Disk) (s : Settings) : Prop where
  sources : ∀ t p, d.refuses t (.read p) = d.refuses d.tree (.read p)
  outputs : ∀ t, ∀ o ∈ s.resolvedOutputs.named, d.refuses t (.compare o.2) = none

theorem analyze_of_holds (hs : s.Ready) (hd : d.Readable s) (h : d.Holds d' (s.outputsWith t))
    (hfound : s.discover d.tree = .ok files) : d'.analyze s files = d.analyze s files := by
  unfold Disk.analyze
  refine congrArg Surface.empty.merge (List.map_congr_left fun p hp => ?_)
  obtain ⟨hlocated, ⟨bytes, hbytes⟩, houtput⟩ :=
    of_mem_discover hs hfound (mem_of_mem_sortedDistinct hp)
  have hread : d.tree.read [] p = .ok bytes := by
    rw [hlocated.eq, FileTree.read_ofLocation_eq_ok_iff hlocated.named]
    exact hbytes
  have hnew : p.location ∉ (s.outputsWith t).map fun o => o.path.location := by
    rw [← contains_iff hs t hlocated, houtput]
    exact Bool.false_ne_true
  have hread' := (h.read_iff hlocated hnew bytes).mpr hread
  simp only [Disk.analyzeFile, Disk.read, Disk.allow, h.changed.refuses, hd.sources, hread, hread']

theorem render_of_holds (hs : s.Ready) (hd : d.Readable s) (h : d.Holds d' (s.outputsWith t))
    (hfound : s.discover d.tree = .ok files) : d'.render s files = d.render s files := by
  rw [Disk.render, Disk.render, analyze_of_holds hs hd h hfound]

theorem holdsText_of_holds (hs : s.Ready) (hd : d.Readable s)
    (h : d.Holds d' (s.outputsWith t)) :
    ∀ o ∈ s.outputsWith t, d'.holdsText o.path o.text = true := by
  intro o ho
  refine Disk.holdsText_iff.mpr ⟨?_, ?_⟩
  · rw [h.changed.refuses]
    exact hd.outputs _ (o.name, o.path) (named_eq s t ▸ List.mem_map_of_mem ho)
  · exact (h.replaced (hs.located_of_mem t)).held o ho

end Again

/-- A run that writes the outputs for what discovery found leaves a disk on which discovery finds
the same files, and on which a check and a further run report the same as it did, except that all
outputs are unchanged; the further run leaves the disk as it is. -/
theorem Disk.Readable.run_again {s : Settings} (hs : s.Ready) {d : Disk} (hd : d.Readable s)
    {files : List Path} (hfound : s.discover d.tree = .ok files) {summary : Summary}
    (hrun : (d.run s .write files).report.result = .ok summary) :
    let d' := (d.run s .write files).disk
    let report : Reported Summary := ⟨(d.run s .write files).report.diagnostics, .ok { summary with
      outputs := s.resolvedOutputs.named.map fun o => ⟨o.1, o.2, .unchanged⟩ }⟩
    s.discover d'.tree = .ok files ∧ (d'.run s .check files).report = report ∧
      (d'.run s .write files).report = report ∧ (d'.run s .write files).disk = d' := by
  intro d' report
  rcases run_write_cases hs d files with ⟨failure, herror, -, -⟩ |
    ⟨surface, t, hrender, ⟨summary', -, hholds⟩ | ⟨-, o, -, fault, -, hwrite, -⟩⟩
  · rw [herror] at hrun
    cases hrun
  · have hagain : d'.render s files = d.render s files := render_of_holds hs hd hholds hfound
    obtain ⟨outputs, rfl⟩ := summary_of_run hrender hrun
    have hdiagnostics : (d.render s files).diagnostics =
        (d.run s .write files).report.diagnostics := by
      rw [run_of_render_ok hrender]
    have hrerun : ∀ mode, d'.run s mode files = ⟨report, d'⟩ := by
      intro mode
      rw [run_of_holdsText (hagain ▸ hrender) (holdsText_of_holds hs hd hholds) mode, hagain,
        hdiagnostics]
      rfl
    refine ⟨discover_of_holds hs hholds hfound, ?_, ?_, ?_⟩ <;> rw [hrerun]
  · rw [hwrite] at hrun
    cases hrun

/-- Generation is a fixpoint: on the tree that a successful run for all discovered files leaves,
discovery finds the same files, a check finds all outputs unchanged and reports the same
diagnostics, and a further run finds them unchanged too and leaves the tree as it is. -/
theorem run_fixpoint {s : Settings} (hs : s.Ready) {t : FileTree} {files : List Path}
    (hfound : s.discover t = .ok files) {summary : Summary}
    (hrun : (({ tree := t } : Disk).run s .write files).report.result = .ok summary) :
    let first := ({ tree := t } : Disk).run s .write files
    let unchanged := { summary with
      outputs := s.resolvedOutputs.named.map fun o => ⟨o.1, o.2, .unchanged⟩ }
    s.discover first.disk.tree = .ok files ∧
      (first.disk.run s .check files).report = ⟨first.report.diagnostics, .ok unchanged⟩ ∧
      (first.disk.run s .write files).report = ⟨first.report.diagnostics, .ok unchanged⟩ ∧
      (first.disk.run s .write files).disk.tree = first.disk.tree := by
  have hreadable : ({ tree := t } : Disk).Readable s := ⟨fun _ _ => rfl, fun _ _ _ => rfl⟩
  obtain ⟨hagain, hcheck, hwrite, hdisk⟩ := hreadable.run_again hs hfound hrun
  exact ⟨hagain, hcheck, hwrite, congrArg Disk.tree hdisk⟩

def flatTree : FileTree where
  entries := [(["work"], .directory), (["work", "a.ts"], .file
    "/** @expose */\nexport async function f(): Promise<void> \x7b \x7d\n".toUTF8)]
  distinct := by decide +kernel
  named := by decide +kernel
  rooted := by decide +kernel

theorem flat_run_fixpoint :
    Settings.flat.discover flatTree = .ok [⟨"/work/a.ts"⟩] ∧ ∃ summary,
      (({ tree := flatTree } : Disk).run .flat .write [⟨"/work/a.ts"⟩]).report.result =
        .ok summary ∧
      let first := ({ tree := flatTree } : Disk).run .flat .write [⟨"/work/a.ts"⟩]
      Settings.flat.discover first.disk.tree = .ok [⟨"/work/a.ts"⟩] ∧
        (first.disk.run .flat .write [⟨"/work/a.ts"⟩]).disk.tree = first.disk.tree := by
  have hfound : Settings.flat.discover flatTree = .ok [⟨"/work/a.ts"⟩] := by decide +kernel
  have hok : (({ tree := flatTree } : Disk).run .flat .write
      [⟨"/work/a.ts"⟩]).report.result.isOk = true := by decide +kernel
  obtain ⟨summary, hrun⟩ := exists_eq_ok hok
  obtain ⟨hagain, -, -, htree⟩ := run_fixpoint Settings.ready_flat hfound hrun
  exact ⟨hfound, summary, hrun, hagain, htree⟩

end CallBridge
