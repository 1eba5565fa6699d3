import CallBridge.Proofs.Files.Progress
import CallBridge.Proofs.Run.Prediction

/-! # Outputs that can all be written

Valid settings name three different places. That all of them can be written where nothing stands in
the way takes more: no output may lie below another, since what is written first is then a file where
a directory is needed, or the other way round.
-/
namespace CallBridge

/-- None of the locations is another one or leads to it. -/
def Apart (ls : List Location) : Prop :=
  ls.Pairwise fun l m => ¬ l <+: m ∧ ¬ m <+: l

instance (ls : List Location) : Decidable (Apart ls) :=
  inferInstanceAs (Decidable (ls.Pairwise _))

namespace FileTree

variable {t t' : FileTree} {l m : Location} {bytes : ByteArray}

instance (t : FileTree) (l : Location) : Decidable (t.Vacant l) :=
  decidable_of_iff (t.get? l = none ∧
      ∀ m ∈ l.inits, m ≠ l → t.get? m = none ∨ t.get? m = some .directory) <| by
    simp only [List.mem_inits]
    exact ⟨fun h => ⟨h.1, h.2⟩, fun h => ⟨h.free, h.above⟩⟩

theorem Vacant.of_put (h : t.Vacant m) (hlm : ¬ l <+: m) (hml : ¬ m <+: l)
    (hput : ∀ k, t'.get? k = if k = l then some (.file bytes)
      else if k <+: l then some .directory else t.get? k) : t'.Vacant m := by
  have hne : ∀ k, k <+: m → k ≠ l := by
    rintro k hk rfl
    exact hlm hk
  refine ⟨?_, fun k hk hkm => ?_⟩
  · rw [hput, if_neg (hne m List.prefix_rfl), if_neg hml, h.free]
  · rw [hput, if_neg (hne k hk)]
    split_ifs
    · exact .inr rfl
    · exact h.above k hk hkm

theorem apart_of_files {ls : List Location} (hls : ls.Nodup)
    (h : ∀ l ∈ ls, ∃ bytes, t.get? l = some (.file bytes)) : Apart ls := by
  have hleads : ∀ l ∈ ls, ∀ m ∈ ls, l <+: m → l = m := by
    rintro l hl m hm ⟨rest, rfl⟩
    by_cases hrest : rest = []
    · simp [hrest]
    · obtain ⟨_, hfile⟩ := h l hl
      obtain ⟨_, hbelow⟩ := h _ hm
      rw [get?_of_append hrest hbelow] at hfile
      cases hfile
  refine hls.imp_of_mem fun hl hm hne => ?_
  exact ⟨fun hlm => hne (hleads _ hl _ hm hlm), fun hml => hne (hleads _ hm _ hl hml).symm⟩

end FileTree

theorem Output.write_of_vacant {o : Output} {d : Disk} (hd : d.Granting) (ho : o.path.Located)
    (h : d.tree.Vacant o.path.location) :
    Ends o.write d
      (fun r d' => r = ⟨o.name, o.path, .written⟩ ∧ d.Shows d' fun m =>
        if m = o.path.location then some (.file o.text.toUTF8)
        else if m <+: o.path.location then some .directory else d.tree.get? m)
      fun _ _ => False := by
  have hholds : d.holdsText o.path o.text ≠ true := by
    intro hholds
    obtain ⟨-, hread⟩ := Disk.holdsText_iff.mp hholds
    rw [ho.eq, FileTree.read_ofLocation_eq_ok_iff ho.named, h.free] at hread
    cases hread
  obtain ⟨u, d', hrun, hshows⟩ := (Disk.replace_of_vacant hd ho.named h o.text).exists_ok
  rw [← ho.eq] at hrun
  unfold Output.write
  refine ends_bind (ends_get ?_)
  rw [if_neg hholds]
  refine ends_bind (ends_get ?_)
  rw [hrun]
  unfold Ends
  exact ⟨rfl, hshows⟩

/-- Outputs that are apart are all written where nothing stands in the way. -/
theorem writeAll_of_vacant {os : List Output} {d : Disk} (hd : d.Granting)
    (hlocated : ∀ o ∈ os, o.path.Located) (hapart : Apart (os.map fun o => o.path.location))
    (hvacant : ∀ o ∈ os, d.tree.Vacant o.path.location) :
    Ends (os.mapM Output.write) d
      (fun rs _ => rs = os.map fun o => ⟨o.name, o.path, .written⟩) fun _ _ => False := by
  induction os generalizing d with
  | nil => exact ends_pure rfl
  | cons o os ih =>
    rw [List.map_cons, Apart, List.pairwise_cons] at hapart
    rw [List.mapM_cons]
    refine ends_bind ((Output.write_of_vacant hd (hlocated o List.mem_cons_self)
      (hvacant o List.mem_cons_self)).mono (fun r d' h => ?_) fun _ _ h => h)
    obtain ⟨rfl, hshows⟩ := h
    have hvacant' : ∀ q ∈ os, d'.tree.Vacant q.path.location := by
      intro q hq
      obtain ⟨hoq, hqo⟩ := hapart.1 _ (List.mem_map_of_mem hq)
      exact (hvacant q (List.mem_cons_of_mem _ hq)).of_put hoq hqo hshows.get?
    refine ends_bind ((ih (hshows.granting hd) (fun q hq => hlocated q (List.mem_cons_of_mem _ hq))
      hapart.2 hvacant').mono (fun rs _ hrs => ends_pure ?_) fun _ _ h => h)
    rw [hrs, List.map_cons]

def Settings.places (s : Settings) : List Location :=
  s.resolvedOutputs.named.map fun o => o.2.location

variable {s : Settings} {d : Disk} {files : List Path}

/-- Of a run that writes where nothing stands in the way: if the outputs are apart, all three are
written and stand in their places with their texts; if one of them leads to another, the run fails
at an output. -/
theorem outputs_writable (hs : s.Ready) (hd : d.Granting)
    (hvacant : ∀ l ∈ s.places, d.tree.Vacant l) {surface : Surface} {t : Generated.Texts}
    (hrender : (d.render s files).result = .ok (surface, t)) :
    (Apart s.places →
      (d.run s .write files).report.result = .ok (summaryOf files surface
        ((s.outputsWith t).map fun o => ⟨o.name, o.path, .written⟩)) ∧
      ∀ o ∈ s.outputsWith t,
        (d.run s .write files).disk.tree.read [] o.path = .ok o.text.toUTF8) ∧
    (¬ Apart s.places → ∃ o ∈ s.outputsWith t, ∃ fault,
      (d.run s .write files).report.result = .error (.write o.path fault)) := by
  have hlocated := hs.located_of_mem t
  have hnodup := hs.locations_nodup t
  have hends := writeAll_ends hlocated hnodup d
  constructor
  · intro hapart
    have hvacant' : ∀ o ∈ s.outputsWith t, d.tree.Vacant o.path.location :=
      fun o ho => hvacant _ (List.mem_map_of_mem (f := fun o : Output => o.path.location) ho)
    have hboth : Ends ((s.outputsWith t).mapM Output.write) d
        (fun rs d' => (rs = (s.outputsWith t).map fun o => ⟨o.name, o.path, .written⟩) ∧
          d.Holds d' (s.outputsWith t)) fun _ _ => False :=
      ((writeAll_of_vacant hd hlocated hapart hvacant').and hends).mono (fun _ _ h => h)
        fun _ _ h => h.1
    obtain ⟨reports, d', hrun, rfl, hholds⟩ := hboth.exists_ok
    rw [run_of_render_ok hrender]
    simp only [Mode.apply, hrun]
    exact ⟨rfl, (hholds.replaced hlocated).held⟩
  · intro hnested
    obtain ⟨hok, herror⟩ := result_of_ends hrender hends
    cases hresult : (d.run s .write files).report.result with
    | ok summary =>
      obtain ⟨reports, d', hholds, -⟩ := hok summary hresult
      refine absurd (FileTree.apart_of_files (t := d'.tree) hnodup fun l hl => ?_) hnested
      obtain ⟨o, ho, rfl⟩ := List.mem_map.mp hl
      exact ⟨_, hholds.held o ho⟩
    | error failure =>
      obtain ⟨d', done, o, rest, fault, hos, rfl, -⟩ := herror failure hresult
      exact ⟨o, by simp [hos], fault, rfl⟩

/-- Settings under which one output is to be a file and the directory of another one. -/
def Settings.nested : Settings :=
  { root := ⟨"/work"⟩
    outputs := ⟨⟨"out"⟩, ⟨"out/bridge.ts"⟩, ⟨"types.d.ts"⟩⟩ }

def startedTree : FileTree where
  entries := [(["work"], .directory), (["work", "src"], .directory),
    (["work", "src", "main"], .directory), (["work", "src", "a.ts"], .file
      "/** @expose */\nexport async function f(): Promise<void> \x7b \x7d\n".toUTF8)]
  distinct := by decide +kernel
  named := by decide +kernel
  rooted := by decide +kernel

/-- A disk on which outputs cannot be compared, and which refuses nothing else. -/
def startedDisk : Disk where
  tree := startedTree
  refuses
    | _, .compare _ => some (.other "Permission denied (os error 13)")
    | _, _ => none

theorem granting_startedDisk : startedDisk.Granting :=
  ⟨fun _ _ => rfl, fun _ _ => rfl, fun _ _ => rfl, fun _ _ => rfl⟩

/-- A run that writes in the places of the default outputs. -/
theorem started_outputs_writable :
    (Settings.ofRoot ⟨"/work"⟩).Ready ∧ startedDisk.Granting ∧
      (∀ l ∈ (Settings.ofRoot ⟨"/work"⟩).places, startedDisk.tree.Vacant l) ∧
      Apart (Settings.ofRoot ⟨"/work"⟩).places ∧
      ∃ surface t, (startedDisk.render (.ofRoot ⟨"/work"⟩) [⟨"/work/src/a.ts"⟩]).result =
          .ok (surface, t) ∧
        ∀ o ∈ (Settings.ofRoot ⟨"/work"⟩).outputsWith t,
          (startedDisk.run (.ofRoot ⟨"/work"⟩) .write [⟨"/work/src/a.ts"⟩]).disk.tree.read []
            o.path = .ok o.text.toUTF8 := by
  have hs : (Settings.ofRoot ⟨"/work"⟩).Ready := Settings.ready_ofRoot (by decide +kernel)
  have hplaces : (Settings.ofRoot ⟨"/work"⟩).places =
      [["work", "src", "main", "bridge.generated.ts"],
        ["work", "src", "preload", "bridge.generated.ts"],
        ["work", "src", "renderer", "bridge.generated.d.ts"]] := by decide +kernel
  have hvacant : ∀ l ∈ (Settings.ofRoot ⟨"/work"⟩).places, startedDisk.tree.Vacant l := by
    rw [hplaces]
    decide +kernel
  have hapart : Apart (Settings.ofRoot ⟨"/work"⟩).places := by
    rw [hplaces]
    decide +kernel
  have hok : (startedDisk.render (.ofRoot ⟨"/work"⟩) [⟨"/work/src/a.ts"⟩]).result.isOk = true := by
    decide +kernel
  obtain ⟨⟨surface, t⟩, hrender⟩ := exists_eq_ok hok
  have hwritten := (outputs_writable hs granting_startedDisk hvacant hrender).1 hapart
  exact ⟨hs, granting_startedDisk, hvacant, hapart, surface, t, hrender, hwritten.2⟩

/-- Valid settings may name an output below another one. On an empty disk the run for them fails at
the second output, in whose way the first one stands. -/
theorem nested_outputs_not_written :
    Settings.nested.Ready ∧ Disk.Granting ⟨.empty, fun _ _ => none⟩ ∧
      (∀ l ∈ Settings.nested.places, FileTree.empty.Vacant l) ∧
      (Disk.render ⟨.empty, fun _ _ => none⟩ .nested []).result.isOk = true ∧
      (Disk.run ⟨.empty, fun _ _ => none⟩ .nested .write []).report.result =
        .error (.write ⟨"/work/out/bridge.ts"⟩ .alreadyExists) := by
  refine ⟨⟨⟨⟨"/work"⟩, by decide +kernel, by decide +kernel⟩, by decide +kernel⟩,
    ⟨fun _ _ => rfl, fun _ _ => rfl, fun _ _ => rfl, fun _ _ => rfl⟩, by decide +kernel,
    by decide +kernel, by decide +kernel⟩

end CallBridge
