import CallBridge.Proofs.Generated.CallSurface
import CallBridge.Proofs.Run.Analysis
import CallBridge.Proofs.Run.Prediction
import Mathlib.Data.List.Dedup

/-! # What a summary says of its run

A summary counts the methods that all generated files agree on, lists the namespaces that the bridge
exposes, and reports on each output with the path and the text that belong to it. It counts the files
as they are given, which are the files that are analyzed exactly if none is given twice.
-/
namespace CallBridge

theorem length_dedup_eq_iff {α : Type} [DecidableEq α] {xs : List α} :
    xs.length = xs.dedup.length ↔ xs.Nodup := by
  constructor
  · intro h
    have hself : xs.dedup = xs := (List.dedup_sublist xs).eq_of_length h.symm
    exact List.dedup_eq_self.mp hself
  · intro h
    rw [h.dedup]

theorem Path.length_sortDistinct {files : List Path} (hfiles : ∀ p ∈ files, p.Located) :
    (sortDistinct files).length = files.dedup.length := by
  have hnodup : (sortDistinct files).Nodup := nodup_of_increasing (sortDistinct_increasing files)
  refine (List.perm_ext_iff_of_nodup hnodup (List.nodup_dedup files)).mpr (fun p => ?_) |>.length_eq
  rw [mem_sortDistinct_iff hfiles, List.mem_dedup]

namespace Generated

variable {s : Surface}

theorem length_registrations {output : Path} {runtime : String} {b : Backend}
    (h : Backend.ofSurface s output runtime = .ok b) : b.registrations.length = s.size := by
  have hlength := (forall₂_registers h).length_eq
  simpa [calls, Surface.size] using hlength.symm

/-- The registrations that stand in the text of the backend are as many as the methods. -/
theorem registrations_standIn {output : Path} {runtime : String} {b : Backend}
    (h : Backend.ofSurface s output runtime = .ok b) : ∃ lines, lines.length = s.size ∧
      (∀ l ∈ lines, Begins "register" l) ∧ StandsIn lines "register" b.text := by
  refine ⟨b.registrations.map Registration.text, ?_, fun l hl => ?_, b.standsIn_text.2.2⟩
  · rw [List.length_map, length_registrations h]
  · obtain ⟨r, -, rfl⟩ := List.mem_map.mp hl
    exact r.begins

theorem length_members {runtime : String} {b : Bridge} (h : Bridge.ofSurface s runtime = .ok b) :
    b.members.length = s.size := by
  have hlength := (forall₂_forwards h).length_eq
  simpa [entries_objects, calls, Surface.size] using hlength.symm

/-- The objects that the text of the bridge exposes are the namespaces, with as many members as there
are methods. -/
theorem objects_shown {runtime : String} {b : Bridge} (h : Bridge.ofSurface s runtime = .ok b) :
    ∃ objects, Bridge.Shows objects b.text ∧ objects.map Prod.fst = s.namespaces ∧
      (entries objects).length = s.size :=
  ⟨b.objects, b.shows_text, map_fst_objects h, entries_objects b ▸ length_members h⟩

theorem blocks_map_name {runtime : String} {b : Bridge} (h : Bridge.ofSurface s runtime = .ok b) :
    b.blocks.map ExposeBlock.name = s.namespaces := by
  rw [← map_fst_objects h, Bridge.objects, List.map_map]
  rfl

end Generated

/-- The report says what became of the output. A check compares the text with the disk. A run that
writes compares it when the output's turn comes, where the path reads as it did before the run, and
leaves the text in its place. -/
def Output.ReportedBy (o : Output) : Mode → Disk → Disk → OutputReport → Prop
  | .check, d, _, r => r = o.check d
  | .write, d, d', r =>
    (∃ turn : Disk, turn.refuses = d.refuses ∧
      (∀ bytes, turn.tree.read [] o.path = .ok bytes ↔ d.tree.read [] o.path = .ok bytes) ∧
      r = o.written turn) ∧
    d'.tree.read [] o.path = .ok o.text.toUTF8

/-- Each output is compared when its turn comes, on a disk where only outputs in front of it have
changed. -/
theorem writeAll_compares {os : List Output} (hlocated : ∀ o ∈ os, o.path.Located)
    (hnodup : (os.map fun o => o.path.location).Nodup) {ls : List Location} {start d : Disk}
    (hd : start.Changed ls d) (hnew : ∀ o ∈ os, o.path.location ∉ ls) :
    Ends (os.mapM Output.write) d
      (fun rs _ => List.Forall₂ (fun o r => ∃ turn : Disk, turn.refuses = start.refuses ∧
        (∀ bytes, turn.tree.read [] o.path = .ok bytes ↔ start.tree.read [] o.path = .ok bytes) ∧
        r = o.written turn) os rs)
      fun _ _ => True := by
  induction os generalizing ls d with
  | nil => exact ends_pure .nil
  | cons o os ih =>
    rw [List.map_cons, List.nodup_cons] at hnodup
    rw [List.mapM_cons]
    have ho := hlocated o List.mem_cons_self
    refine ends_bind (((o.write_reports d).and (o.write_ends ho d)).mono (fun r d' h => ?_)
      fun _ _ _ => trivial)
    obtain ⟨⟨rfl, -⟩, hchanged, -⟩ := h
    have hd' : start.Changed (o.path.location :: ls) d' :=
      (hd.mono (List.subset_cons_self _ _)).trans (hchanged.mono (by simp))
    have hnew' : ∀ q ∈ os, q.path.location ∉ o.path.location :: ls := by
      intro q hq hmem
      rcases List.mem_cons.mp hmem with heq | hmem
      · exact hnodup.1 (List.mem_map.mpr ⟨q, hq, heq⟩)
      · exact hnew q (List.mem_cons_of_mem _ hq) hmem
    refine ends_bind ((ih (fun q hq => hlocated q (List.mem_cons_of_mem _ hq)) hnodup.2 hd'
      hnew').mono (fun rs _ hrs => ends_pure (.cons ⟨d, hd.refuses, fun bytes => ?_, rfl⟩ hrs))
      fun _ _ _ => trivial)
    rw [ho.eq, FileTree.read_ofLocation_eq_ok_iff ho.named,
      FileTree.read_ofLocation_eq_ok_iff ho.named]
    exact hd.tree.get?_eq_file_iff (hnew o List.mem_cons_self)

section Run
variable {s : Settings} {d : Disk} {files : List Path} {mode : Mode} {summary : Summary}

theorem exists_render_of_run (hrun : (d.run s mode files).report.result = .ok summary) :
    ∃ surface t, (d.render s files).result = .ok (surface, t) := by
  cases hrender : (d.render s files).result with
  | error failure =>
    rw [run_of_render_error hrender] at hrun
    cases hrun
  | ok rendered => exact ⟨rendered.1, rendered.2, rfl⟩

theorem render_eq_ok_iff {surface : Surface} {t : Generated.Texts} :
    (d.render s files).result = .ok (surface, t) ↔ (d.analyze s files).result = .ok surface ∧
      Generated.texts surface s.resolvedOutputs s.runtime = .ok t := by
  unfold Disk.render Reported.andThen
  change (d.analyze s files).result >>= _ = _ ↔ _
  simp only [bind_eq_ok_iff, pure_eq_ok_iff, Prod.mk.injEq]
  constructor
  · rintro ⟨surface', hsurface, t', ht, rfl, rfl⟩
    exact ⟨hsurface, ht⟩
  · rintro ⟨hsurface, ht⟩
    exact ⟨surface, hsurface, t, ht, rfl, rfl⟩

theorem reportedBy_of_run (hs : s.Ready) {surface : Surface} {t : Generated.Texts}
    (hrender : (d.render s files).result = .ok (surface, t))
    (hrun : (d.run s mode files).report.result = .ok summary) :
    List.Forall₂ (fun o r => Output.ReportedBy o mode d (d.run s mode files).disk r)
      (s.outputsWith t) summary.outputs := by
  cases mode with
  | check =>
    rw [check_of_render_ok hrender] at hrun
    obtain rfl := Except.ok.inj hrun
    exact List.forall₂_map_right_iff.mpr (List.forall₂_same.mpr fun _ _ => rfl)
  | write =>
    have hlocated := hs.located_of_mem t
    have hnodup := hs.locations_nodup t
    have hboth := (writeAll_compares hlocated hnodup (.refl [] d) fun _ _ => List.not_mem_nil).and
      (writeAll_ends hlocated hnodup d)
    rw [run_of_render_ok hrender] at hrun ⊢
    unfold Ends at hboth
    change (((s.outputsWith t).mapM Output.write).run.run d).1.map _ = _ at hrun
    change List.Forall₂ (fun o r => Output.ReportedBy o .write d
      (((s.outputsWith t).mapM Output.write).run.run d).2 r) _ _
    cases hresult : ((s.outputsWith t).mapM Output.write).run.run d with
    | mk r d' =>
      rw [hresult] at hboth hrun
      cases r with
      | error failure => cases hrun
      | ok reports =>
        obtain rfl := Except.ok.inj hrun
        obtain ⟨hcompared, hholds⟩ := hboth
        have hheld := (hholds.replaced hlocated).held
        refine ((List.forall₂_and_left _ _).mpr ⟨hheld, hcompared⟩).imp ?_
        exact fun o r h => ⟨h.2, h.1⟩

/-- The summary of a successful run. The files that are analyzed are the different ones of those
given, and their number is that of the summary exactly if none is given twice. The methods are as
many as the registrations of the backend and as the forwarders of the bridge, and the namespaces are
those of the objects that the bridge exposes, in the modules and as they stand in the texts. The
reports are on the backend, the bridge and the types, each with its own path and its own text. -/
theorem summary_describes_run (hs : s.Ready)
    (hfiles : ∀ p ∈ files, p.isAbsolute = true ∧ p.normalize = p)
    (hrun : (d.run s mode files).report.result = .ok summary) :
    (summary.files = files.length ∧ (Path.sortDistinct files).length = files.dedup.length ∧
      (∀ p, p ∈ Path.sortDistinct files ↔ p ∈ files) ∧
      (summary.files = files.dedup.length ↔ files.Nodup)) ∧
    ∃ surface backend bridge types,
      (d.analyze s files).result = .ok surface ∧
      Generated.Backend.ofSurface surface s.resolvedOutputs.backend s.runtime.backend =
        .ok backend ∧
      Generated.Bridge.ofSurface surface s.runtime.bridge = .ok bridge ∧
      Generated.Types.ofSurface surface s.resolvedOutputs.types = .ok types ∧
      (summary.methods = backend.registrations.length ∧
        summary.methods = bridge.members.length) ∧
      (∃ lines, lines.length = summary.methods ∧ (∀ l ∈ lines, Generated.Begins "register" l) ∧
        Generated.StandsIn lines "register" backend.text) ∧
      (∃ objects, Generated.Bridge.Shows objects bridge.text ∧
        objects.map Prod.fst = summary.namespaces ∧
        (Generated.entries objects).length = summary.methods) ∧
      (summary.namespaces = bridge.blocks.map Generated.ExposeBlock.name ∧
        summary.namespaces.Nodup) ∧
      List.Forall₂ (fun o r => Output.ReportedBy o mode d (d.run s mode files).disk r)
        [⟨"backend", s.resolvedOutputs.backend, backend.text⟩,
          ⟨"bridge", s.resolvedOutputs.bridge, bridge.text⟩,
          ⟨"types", s.resolvedOutputs.types, types.text⟩]
        summary.outputs := by
  have hlocated : ∀ p ∈ files, p.Located := fun p hp => Path.located_iff.mpr (hfiles p hp)
  obtain ⟨surface, t, hrender⟩ := exists_render_of_run hrun
  have hreported := reportedBy_of_run hs hrender hrun
  obtain ⟨outputs, rfl⟩ := summary_of_run hrender hrun
  obtain ⟨hanalyze, ht⟩ := render_eq_ok_iff.mp hrender
  obtain ⟨backend, bridge, types, hbackend, hbridge, htypes, rfl⟩ :=
    Generated.texts_eq_ok_iff.mp ht
  refine ⟨⟨rfl, Path.length_sortDistinct hlocated, fun p => Path.mem_sortDistinct_iff hlocated,
    length_dedup_eq_iff⟩, surface, backend, bridge, types, hanalyze, hbackend, hbridge, htypes,
    ⟨?_, ?_⟩, Generated.registrations_standIn hbackend, Generated.objects_shown hbridge, ⟨?_, ?_⟩,
    hreported⟩
  · exact (Generated.length_registrations hbackend).symm
  · exact (Generated.length_members hbridge).symm
  · exact (Generated.blocks_map_name hbridge).symm
  · exact surface.namespaces_nodup

end Run

def pairTree : FileTree where
  entries := [(["work"], .directory),
    (["work", "a.ts"], .file
      "/** @expose userAPI */\nexport function load(): void \x7b\x7d\n".toUTF8),
    (["work", "b.ts"], .file "/** @expose */\nexport function ping(): void \x7b\x7d\n".toUTF8)]
  distinct := by decide +kernel
  named := by decide +kernel
  rooted := by decide +kernel

/-- The sources of `pairTree`, one of them given twice. -/
def repeatedFiles : List Path :=
  [⟨"/work/b.ts"⟩, ⟨"/work/a.ts"⟩, ⟨"/work/b.ts"⟩]

theorem repeatedFiles_normal : ∀ p ∈ repeatedFiles, p.isAbsolute = true ∧ p.normalize = p := by
  decide +kernel

theorem sortDistinct_repeatedFiles :
    Path.sortDistinct repeatedFiles = [⟨"/work/a.ts"⟩, ⟨"/work/b.ts"⟩] := by
  refine Path.sortDistinct_eq (fun p hp => Path.located_iff.mpr (repeatedFiles_normal p hp))
    (by decide +kernel) fun p => ?_
  simp only [repeatedFiles, List.mem_cons, List.not_mem_nil, or_false]
  tauto

theorem exists_run_repeatedFiles : ∃ summary,
    (({ tree := pairTree } : Disk).run .flat .write repeatedFiles).report.result = .ok summary ∧
      summary.files = 3 ∧ summary.methods = 2 ∧ summary.namespaces = ["api", "userAPI"] := by
  have hrun : (({ tree := pairTree } : Disk).run .flat .write repeatedFiles).report.result.toOption.map
      (fun s => (s.files, s.methods, s.namespaces)) = some (3, 2, ["api", "userAPI"]) := by
    rw [Disk.run, Disk.render, Disk.analyze, sortDistinct_repeatedFiles]
    decide +kernel
  obtain ⟨summary, hsummary, hparts⟩ := Option.map_eq_some_iff.mp hrun
  simp only [Prod.mk.injEq] at hparts
  exact ⟨summary, eq_ok_of_toOption hsummary, hparts⟩

theorem repeatedFiles_described :
    Settings.flat.Ready ∧ (∀ p ∈ repeatedFiles, p.isAbsolute = true ∧ p.normalize = p) ∧
    ∃ summary surface backend bridge types,
      (({ tree := pairTree } : Disk).run .flat .write repeatedFiles).report.result = .ok summary ∧
      summary.files ≠ repeatedFiles.dedup.length ∧
      Generated.Backend.ofSurface surface ⟨"/work/main.ts"⟩ "@bridgegen/runtime/backend" =
        .ok backend ∧
      Generated.Bridge.ofSurface surface "@bridgegen/runtime/bridge" = .ok bridge ∧
      backend.registrations.length = 2 ∧ bridge.members.length = 2 ∧
      bridge.blocks.map Generated.ExposeBlock.name = ["api", "userAPI"] ∧
      List.Forall₂ (fun o r => Output.ReportedBy o .write { tree := pairTree }
          (({ tree := pairTree } : Disk).run .flat .write repeatedFiles).disk r)
        [⟨"backend", ⟨"/work/main.ts"⟩, backend.text⟩, ⟨"bridge", ⟨"/work/preload.ts"⟩, bridge.text⟩,
          ⟨"types", ⟨"/work/types.d.ts"⟩, Generated.Types.text types⟩]
        summary.outputs := by
  obtain ⟨summary, hrun, -, hmethods, hnamespaces⟩ := exists_run_repeatedFiles
  obtain ⟨⟨-, -, -, hcount⟩, surface, backend, bridge, types, -, hbackend, hbridge, -,
    ⟨hregistrations, hmembers⟩, -, -, ⟨hblocks, -⟩, hreported⟩ :=
    summary_describes_run Settings.ready_flat repeatedFiles_normal hrun
  have hpaths : Settings.flat.resolvedOutputs =
      ⟨⟨"/work/main.ts"⟩, ⟨"/work/preload.ts"⟩, ⟨"/work/types.d.ts"⟩⟩ := by decide +kernel
  rw [hpaths] at hbackend hreported
  refine ⟨Settings.ready_flat, repeatedFiles_normal, summary, surface, backend, bridge, types, hrun,
    mt hcount.mp (by decide +kernel), hbackend, hbridge, ?_, ?_, ?_, hreported⟩
  · rw [← hregistrations, hmethods]
  · rw [← hmembers, hmethods]
  · rw [← hblocks, hnamespaces]

/-- A file that is given twice is analyzed once, and counted twice. -/
theorem repeated_file_counted_twice :
    (∀ p ∈ repeatedFiles, p.isAbsolute = true ∧ p.normalize = p) ∧
      repeatedFiles.dedup.length = 2 ∧ (Path.sortDistinct repeatedFiles).length = 2 ∧
      ∃ summary, (({ tree := pairTree } : Disk).run .flat .write repeatedFiles).report.result =
        .ok summary ∧ summary.files = 3 := by
  obtain ⟨summary, hrun, hfiles, -⟩ := exists_run_repeatedFiles
  refine ⟨repeatedFiles_normal, by decide +kernel, ?_, summary, hrun, hfiles⟩
  rw [sortDistinct_repeatedFiles]
  rfl

end CallBridge
