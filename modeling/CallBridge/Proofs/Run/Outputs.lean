import CallBridge.Proofs.Files.Disk
import CallBridge.Proofs.Run.Settings

/-! # Writing the outputs

The outputs of usable settings are files at three locations. Each of them is left as it is, or
replaced as a whole, and the first one that cannot be replaced ends the run.
-/
namespace CallBridge

namespace Settings

variable {s : Settings}

theorem Ready.located_of_mem (hs : s.Ready) (t : Generated.Texts) :
    ∀ o ∈ s.outputsWith t, o.path.Located := by
  have hbase := hs.located_base.isAbsolute
  intro o ho
  simp only [outputsWith, resolvedOutputs, List.mem_cons, List.not_mem_nil, or_false] at ho
  rcases ho with rfl | rfl | rfl <;> exact Path.located_absolutize hbase _

theorem Ready.locations_nodup (hs : s.Ready) (t : Generated.Texts) :
    ((s.outputsWith t).map fun o => o.path.location).Nodup := by
  obtain ⟨hbackend, htypes, hbridge⟩ := validate_eq_ok hs.valid
  have hlocated := hs.located_of_mem t
  simp only [outputsWith, List.mem_cons, List.not_mem_nil, or_false, forall_eq_or_imp, forall_eq]
    at hlocated
  obtain ⟨h₁, h₂, h₃⟩ := hlocated
  rw [← Bool.not_eq_true, h₁.same_iff h₂] at hbackend
  rw [← Bool.not_eq_true, h₁.same_iff h₃] at htypes
  rw [← Bool.not_eq_true, h₂.same_iff h₃] at hbridge
  simp [outputsWith, hbackend, htypes, hbridge]

/-- Settings of a project that keeps its sources and outputs in one directory. -/
def flat : Settings :=
  { root := ⟨"/work"⟩
    includes := ["*.ts"]
    outputs := ⟨⟨"main.ts"⟩, ⟨"preload.ts"⟩, ⟨"types.d.ts"⟩⟩ }

theorem ready_flat : flat.Ready :=
  ⟨⟨⟨"/work"⟩, by decide +kernel, by decide +kernel⟩, by decide +kernel⟩

end Settings

theorem Disk.holdsText_iff {d : Disk} {p : Path} {text : String} :
    d.holdsText p text = true ↔
      d.refuses d.tree (.compare p) = none ∧ d.tree.read [] p = .ok text.toUTF8 := by
  unfold holdsText allow
  cases hrefuses : d.refuses d.tree (.compare p) with
  | some fault => simp
  | none =>
    cases hread : d.tree.read [] p with
    | error fault => simp
    | ok bytes =>
      simp only [true_and, Except.ok.injEq]
      change (bytes.data == text.toUTF8.data) = true ↔ bytes = text.toUTF8
      rw [beq_iff_eq, ByteArray.ext_iff]

theorem Output.write_of_holdsText {o : Output} {d : Disk} (h : d.holdsText o.path o.text = true) :
    o.write.run.run d = (.ok ⟨o.name, o.path, .unchanged⟩, d) := by
  unfold Output.write
  rw [ExceptT.run_bind, StateT.run_bind]
  change (if d.holdsText o.path o.text = true then _ else _ : ExceptT Failure (StateM Disk) _).run.run
    d = _
  rw [if_pos h]
  rfl

/-- The outputs hold their texts, and nothing but files at their locations has changed. -/
structure Disk.Holds (d d' : Disk) (os : List Output) : Prop where
  changed : d.Changed (os.map fun o => o.path.location) d'
  held : ∀ o ∈ os, d'.tree.get? o.path.location = some (.file o.text.toUTF8)

theorem Output.write_ends {o : Output} (ho : o.path.Located) (d : Disk) :
    Ends o.write d
      (fun _ d' => d.Changed [o.path.location] d' ∧
        d'.tree.get? o.path.location = some (.file o.text.toUTF8))
      fun f d' => (∃ fault, f = .write o.path fault) ∧ d.Changed [] d' := by
  unfold Output.write
  refine ends_bind (ends_get ?_)
  split_ifs with hholds
  · obtain ⟨-, hread⟩ := Disk.holdsText_iff.mp hholds
    rw [ho.eq, FileTree.read_ofLocation_eq_ok_iff ho.named] at hread
    exact ends_pure ⟨.refl _ _, hread⟩
  · have hreplace := Disk.replace_ends ho.named o.text d
    rw [← ho.eq] at hreplace
    generalize Disk.replace o.path o.text = replace at hreplace ⊢
    refine ends_bind (ends_get ?_)
    unfold Ends at hreplace ⊢
    cases hr : replace.run.run d with
    | mk r d' =>
      rw [hr] at hreplace
      cases r with
      | ok u => exact hreplace
      | error fault => exact ⟨⟨fault, rfl⟩, hreplace⟩

/-- Outputs at different locations are written up to the first one that cannot be replaced. -/
theorem writeAll_ends {os : List Output} (hlocated : ∀ o ∈ os, o.path.Located)
    (hnodup : (os.map fun o => o.path.location).Nodup) (d : Disk) :
    Ends (os.mapM Output.write) d (fun _ d' => d.Holds d' os)
      fun f d' => ∃ done o rest fault, os = done ++ o :: rest ∧ f = .write o.path fault ∧
        d.Holds d' done := by
  refine ends_mapM (P := fun done d' => d.Holds d' done) ⟨.refl _ _, by simp⟩ ?_
  intro done o rest d₁ hos h
  have hnew : o.path.location ∉ done.map fun o => o.path.location := by
    rw [hos, List.map_append, List.map_cons] at hnodup
    exact fun hmem => (List.nodup_append.mp hnodup).2.2 _ hmem _ List.mem_cons_self rfl
  refine (Output.write_ends (hlocated o (by simp [hos])) d₁).mono (fun _ d₂ h₂ => ?_)
    fun f d₂ h₂ => ?_
  · obtain ⟨hchanged, hheld⟩ := h₂
    refine ⟨(h.changed.mono (by simp)).trans (hchanged.mono (by simp)), fun q hq => ?_⟩
    rcases List.mem_append.mp hq with hq | hq
    · have hne : q.path.location ∉ [o.path.location] := by
        intro hmem
        exact hnew (List.mem_map.mpr ⟨q, hq, List.mem_singleton.mp hmem⟩)
      exact (hchanged.tree.get?_eq_file_iff hne).mpr (h.held q hq)
    · obtain rfl := List.mem_singleton.mp hq
      exact hheld
  · obtain ⟨⟨fault, hf⟩, hchanged⟩ := h₂
    refine ⟨done, o, rest, fault, hos, hf, h.changed.trans (hchanged.mono (by simp)), fun q hq => ?_⟩
    exact (hchanged.tree.get?_eq_file_iff List.not_mem_nil).mpr (h.held q hq)

theorem writeAll_of_holdsText {os : List Output} {d : Disk}
    (h : ∀ o ∈ os, d.holdsText o.path o.text = true) :
    (os.mapM Output.write).run.run d = (.ok (os.map fun o => ⟨o.name, o.path, .unchanged⟩), d) := by
  induction os with
  | nil => rfl
  | cons o os ih =>
    rw [List.mapM_cons, ExceptT.run_bind, StateT.run_bind,
      Output.write_of_holdsText (h o List.mem_cons_self)]
    change ((os.mapM Output.write) >>= fun rs => pure (_ :: rs)).run.run d = _
    rw [ExceptT.run_bind, StateT.run_bind, ih fun q hq => h q (List.mem_cons_of_mem _ hq)]
    rfl

section Run
variable {d : Disk} {s : Settings} {files : List Path}

theorem run_of_render_error {failure : Failure} (h : (d.render s files).result = .error failure)
    (mode : Mode) :
    d.run s mode files = ⟨⟨(d.render s files).diagnostics, .error failure⟩, d⟩ := by
  simp only [Disk.run, h]

/-- The summary of a run that wrote or checked its outputs. -/
def summaryOf (files : List Path) (surface : Surface) (outputs : List OutputReport) : Summary :=
  ⟨files.length, surface.size, surface.namespaces, outputs⟩

theorem run_of_render_ok {surface : Surface} {t : Generated.Texts}
    (h : (d.render s files).result = .ok (surface, t)) (mode : Mode) :
    d.run s mode files =
      ⟨⟨(d.render s files).diagnostics,
        ((mode.apply (s.outputsWith t)).run.run d).1.map (summaryOf files surface)⟩,
        ((mode.apply (s.outputsWith t)).run.run d).2⟩ := by
  simp only [Disk.run, h]
  rfl

theorem summary_of_run {surface : Surface} {t : Generated.Texts} {mode : Mode} {summary : Summary}
    (h : (d.render s files).result = .ok (surface, t))
    (hrun : (d.run s mode files).report.result = .ok summary) :
    ∃ outputs, summary = summaryOf files surface outputs := by
  rw [run_of_render_ok h] at hrun
  cases hresult : ((mode.apply (s.outputsWith t)).run.run d).1 with
  | error failure =>
    rw [hresult] at hrun
    cases hrun
  | ok outputs =>
    rw [hresult] at hrun
    exact ⟨outputs, (Except.ok.inj hrun).symm⟩

/-- A run whose outputs hold their texts already finds them unchanged, and so leaves the disk. -/
theorem run_of_holdsText {surface : Surface} {t : Generated.Texts}
    (h : (d.render s files).result = .ok (surface, t))
    (hheld : ∀ o ∈ s.outputsWith t, d.holdsText o.path o.text = true) (mode : Mode) :
    d.run s mode files =
      ⟨⟨(d.render s files).diagnostics, .ok (summaryOf files surface
        ((s.outputsWith t).map fun o => ⟨o.name, o.path, .unchanged⟩))⟩, d⟩ := by
  rw [run_of_render_ok h]
  cases mode with
  | write =>
    have hwritten := writeAll_of_holdsText hheld
    simp only [Mode.apply, hwritten]
    rfl
  | check =>
    have hchecked : (s.outputsWith t).map (·.check d) =
        (s.outputsWith t).map fun o => ⟨o.name, o.path, .unchanged⟩ := by
      refine List.map_congr_left fun o ho => ?_
      simp only [Output.check, hheld o ho, ↓reduceIte]
    change (⟨⟨_, .ok (summaryOf files surface ((s.outputsWith t).map (·.check d)))⟩, d⟩ :
      RunOutcome) = _
    rw [hchecked]

end Run

end CallBridge
