import CallBridge.Proofs.Run.Atomicity

/-! # What a check says of a write

A run that writes compares each output with its text when its turn comes, behind the replacements of
the outputs in front of it. A check compares all of them with the disk as it is. Both see the same,
since replacing one output leaves the others alone, so a check foretells what a write does.
-/
namespace CallBridge

/-- Whether a file may be compared does not depend on what is on the disk. -/
def Disk.ComparesSteadily (d : Disk) (p : Path) : Prop :=
  ∀ t, d.refuses t (.compare p) = d.refuses d.tree (.compare p)

theorem Disk.ComparesSteadily.of_changed {d d' : Disk} {ls : List Location} {p : Path}
    (hp : d.ComparesSteadily p) (h : d.Changed ls d') : d'.ComparesSteadily p := by
  intro t
  rw [h.refuses, hp t, hp d'.tree]

theorem Disk.holdsText_of_changed {d d' : Disk} {ls : List Location} {p : Path}
    (h : d.Changed ls d') (hp : p.Located) (hnew : p.location ∉ ls)
    (hsteady : d.ComparesSteadily p) (text : String) :
    d'.holdsText p text = d.holdsText p text := by
  have hread : d'.tree.read [] p = .ok text.toUTF8 ↔ d.tree.read [] p = .ok text.toUTF8 := by
    rw [hp.eq, FileTree.read_ofLocation_eq_ok_iff hp.named,
      FileTree.read_ofLocation_eq_ok_iff hp.named]
    exact h.tree.get?_eq_file_iff hnew
  rw [Bool.eq_iff_iff, holdsText_iff, holdsText_iff, h.refuses, hsteady d'.tree, hread]

def Output.written (o : Output) (d : Disk) : OutputReport :=
  ⟨o.name, o.path, if d.holdsText o.path o.text then .unchanged else .written⟩

theorem Output.written_unchanged_iff {o : Output} {d : Disk} :
    (o.written d).status = .unchanged ↔ d.holdsText o.path o.text = true := by
  unfold written
  split_ifs with hholds <;> simp [hholds]

theorem Output.write_reports (o : Output) (d : Disk) :
    Ends o.write d (fun r d' => r = o.written d ∧ (r.status = .unchanged → d' = d))
      fun _ _ => True := by
  unfold Output.write Output.written
  refine ends_bind (ends_get ?_)
  split_ifs with hholds
  · exact ends_pure ⟨rfl, fun _ => rfl⟩
  · refine ends_bind (ends_get ?_)
    cases hr : (Disk.replace o.path o.text).run.run d with
    | mk r d' =>
      cases r with
      | ok u =>
        unfold Ends
        refine ⟨rfl, fun hstatus => ?_⟩
        cases hstatus
      | error fault =>
        unfold Ends
        trivial

/-- Outputs at different locations are reported on as if all of them were written first. -/
theorem writeAll_reports {os : List Output} (hlocated : ∀ o ∈ os, o.path.Located)
    (hnodup : (os.map fun o => o.path.location).Nodup) {d : Disk}
    (hsteady : ∀ o ∈ os, d.ComparesSteadily o.path) :
    Ends (os.mapM Output.write) d (fun rs _ => rs = os.map (·.written d)) fun _ _ => True := by
  induction os generalizing d with
  | nil => exact ends_pure rfl
  | cons o os ih =>
    rw [List.map_cons, List.nodup_cons] at hnodup
    rw [List.mapM_cons]
    have hfirst := (o.write_reports d).and (o.write_ends (hlocated o List.mem_cons_self) d)
    refine ends_bind (hfirst.mono (fun r d' h => ?_) fun _ _ _ => trivial)
    obtain ⟨⟨rfl, -⟩, hchanged, -⟩ := h
    have hrest := ih (fun q hq => hlocated q (List.mem_cons_of_mem _ hq)) hnodup.2
      fun q hq => (hsteady q (List.mem_cons_of_mem _ hq)).of_changed hchanged
    refine ends_bind (hrest.mono (fun rs _ hrs => ends_pure ?_) fun _ _ _ => trivial)
    -- What is behind the first output compares as if nothing had been written.
    have hsame : os.map (·.written d') = os.map (·.written d) := by
      refine List.map_congr_left fun q hq => ?_
      have hnew : q.path.location ∉ [o.path.location] := by
        intro hmem
        exact hnodup.1 (List.mem_map.mpr ⟨q, hq, List.mem_singleton.mp hmem⟩)
      rw [Output.written, Output.written, Disk.holdsText_of_changed hchanged
        (hlocated q (List.mem_cons_of_mem _ hq)) hnew (hsteady q (List.mem_cons_of_mem _ hq))]
    rw [hrs, hsame, List.map_cons]

theorem writeAll_unchanged (os : List Output) (d : Disk) :
    Ends (os.mapM Output.write) d
      (fun rs _ => (∀ r ∈ rs, r.status = .unchanged) →
        ∀ o ∈ os, d.holdsText o.path o.text = true)
      fun _ _ => True := by
  induction os generalizing d with
  | nil =>
    refine ends_pure fun _ o ho => ?_
    cases ho
  | cons o os ih =>
    rw [List.mapM_cons]
    refine ends_bind ((o.write_reports d).mono (fun r d' hfirst => ?_) fun _ _ _ => trivial)
    refine ends_bind ((ih d').mono (fun rs _ hrest => ends_pure fun hall => ?_) fun _ _ _ => trivial)
    have hstatus := hall r List.mem_cons_self
    obtain rfl := hfirst.2 hstatus
    have hheld := Output.written_unchanged_iff.mp (hfirst.1 ▸ hstatus)
    have hothers := hrest fun q hq => hall q (List.mem_cons_of_mem _ hq)
    intro q hq
    rcases List.mem_cons.mp hq with rfl | hq
    · exact hheld
    · exact hothers q hq

/-- Of two reports on an output, the one without writing foretells the other. -/
structure OutputReport.Foretells (checked written : OutputReport) : Prop where
  name : checked.name = written.name
  path : checked.path = written.path
  stale : checked.status = .stale ↔ written.status = .written
  unchanged : checked.status = .unchanged ↔ written.status = .unchanged

theorem Output.check_foretells (o : Output) (d : Disk) : (o.check d).Foretells (o.written d) := by
  constructor
  · rfl
  · rfl
  · unfold check written
    split_ifs <;> simp
  · unfold check written
    split_ifs <;> simp

section Run
variable {s : Settings} {d : Disk} {files : List Path}

theorem check_of_render_ok {surface : Surface} {t : Generated.Texts}
    (h : (d.render s files).result = .ok (surface, t)) :
    (d.run s .check files).report =
      ⟨(d.render s files).diagnostics,
        .ok (summaryOf files surface ((s.outputsWith t).map (·.check d)))⟩ := by
  rw [run_of_render_ok h]
  rfl

theorem diagnostics_of_run (mode : Mode) :
    (d.run s mode files).report.diagnostics = (d.render s files).diagnostics := by
  cases hrender : (d.render s files).result with
  | error failure => rw [run_of_render_error hrender]
  | ok rendered => rw [run_of_render_ok hrender]

/-- How the writing of the outputs ends decides the result of a run. -/
theorem result_of_ends {surface : Surface} {t : Generated.Texts}
    (h : (d.render s files).result = .ok (surface, t)) {ok : List OutputReport → Disk → Prop}
    {bad : Failure → Disk → Prop} (hends : Ends ((s.outputsWith t).mapM Output.write) d ok bad) :
    (∀ summary, (d.run s .write files).report.result = .ok summary →
      ∃ reports d', ok reports d' ∧ summary = summaryOf files surface reports) ∧
    ∀ failure, (d.run s .write files).report.result = .error failure →
      ∃ d', bad failure d' := by
  have hresult : (d.run s .write files).report.result =
      (((s.outputsWith t).mapM Output.write).run.run d).1.map (summaryOf files surface) := by
    rw [run_of_render_ok h]
    rfl
  rw [hresult]
  unfold Ends at hends
  cases hrun : ((s.outputsWith t).mapM Output.write).run.run d with
  | mk r d' =>
    rw [hrun] at hends
    cases r with
    | ok reports =>
      refine ⟨fun summary hsummary => ⟨reports, d', hends, (Except.ok.inj hsummary).symm⟩, ?_⟩
      intro failure hfailure
      cases hfailure
    | error first =>
      refine ⟨fun summary hsummary => ?_, fun failure hfailure => ⟨d', ?_⟩⟩
      · cases hsummary
      · obtain rfl := Except.error.inj hfailure
        exact hends

/-- A run that writes reports on its outputs as they compare with the disk that it starts from. -/
theorem outputs_of_write (hs : s.Ready)
    (hd : ∀ o ∈ s.resolvedOutputs.named, d.ComparesSteadily o.2) {surface : Surface}
    {t : Generated.Texts} (h : (d.render s files).result = .ok (surface, t)) {summary : Summary}
    (hrun : (d.run s .write files).report.result = .ok summary) :
    summary = summaryOf files surface ((s.outputsWith t).map (·.written d)) := by
  have hsteady : ∀ o ∈ s.outputsWith t, d.ComparesSteadily o.path := by
    intro o ho
    exact hd (o.name, o.path) (List.mem_map_of_mem (f := fun o : Output => (o.name, o.path)) ho)
  have hreports := writeAll_reports (hs.located_of_mem t) (hs.locations_nodup t) hsteady
  obtain ⟨reports, -, rfl, hsummary⟩ := (result_of_ends h hreports).1 summary hrun
  exact hsummary

/-- Behind the rendering a run that writes fails only at an output. -/
theorem touching_of_write (hs : s.Ready) {surface : Surface} {t : Generated.Texts}
    (h : (d.render s files).result = .ok (surface, t)) {failure : Failure}
    (hrun : (d.run s .write files).report.result = .error failure) :
    failure.outputsUntouched = false := by
  have hends := writeAll_ends (hs.located_of_mem t) (hs.locations_nodup t) d
  obtain ⟨-, done, o, rest, fault, -, rfl, -⟩ := (result_of_ends h hends).2 failure hrun
  rfl

/-- A failure to render the outputs ends every run, a check ends with no other failure, and a run
that writes ends with no other one that leaves the outputs untouched. -/
theorem render_error_iff (hs : s.Ready) (d : Disk) (files : List Path) (failure : Failure) :
    ((d.run s .check files).report.result = .error failure ↔
      (d.render s files).result = .error failure) ∧
    ((d.run s .write files).report.result = .error failure ∧ failure.outputsUntouched = true ↔
      (d.render s files).result = .error failure) := by
  cases hrender : (d.render s files).result with
  | error first =>
    have huntouched := untouching_render d s files first hrender
    rw [run_of_render_error hrender, run_of_render_error hrender]
    constructor
    · simp only [Except.error.injEq]
    · constructor
      · rintro ⟨h, -⟩
        cases h
        rfl
      · intro h
        cases h
        exact ⟨rfl, huntouched⟩
  | ok rendered =>
    obtain ⟨surface, t⟩ := rendered
    rw [check_of_render_ok hrender]
    refine ⟨⟨fun h => ?_, fun h => ?_⟩, fun ⟨h, huntouched⟩ => ?_, fun h => ?_⟩
    · cases h
    · cases h
    · rw [touching_of_write hs hrender h] at huntouched
      cases huntouched
    · cases h

/-- A check finds no output out of date if and only if a run that writes finds all of them
unchanged, for the same texts would be compared with the same disk. -/
theorem fresh_iff_unchanged :
    (∃ summary, (d.run s .check files).report.result = .ok summary ∧ summary.isStale = false) ↔
      ∃ summary, (d.run s .write files).report.result = .ok summary ∧
        ∀ r ∈ summary.outputs, r.status = .unchanged := by
  cases hrender : (d.render s files).result with
  | error failure =>
    simp only [run_of_render_error hrender, reduceCtorEq, false_and, exists_false]
  | ok rendered =>
    obtain ⟨surface, t⟩ := rendered
    constructor
    · rintro ⟨summary, hcheck, hfresh⟩
      rw [check_of_render_ok hrender] at hcheck
      obtain rfl := Except.ok.inj hcheck
      have hheld : ∀ o ∈ s.outputsWith t, d.holdsText o.path o.text = true := by
        intro o ho
        by_contra hnot
        refine absurd hfresh (Bool.not_eq_false _ ▸ ?_)
        refine List.any_eq_true.mpr ⟨o.check d, List.mem_map_of_mem ho, ?_⟩
        rw [Output.check, if_neg hnot]
        rfl
      rw [run_of_holdsText hrender hheld]
      refine ⟨_, rfl, fun r hr => ?_⟩
      obtain ⟨o, -, rfl⟩ := List.mem_map.mp hr
      rfl
    · rintro ⟨summary, hwrite, hall⟩
      obtain ⟨reports, -, hunchanged, rfl⟩ :=
        (result_of_ends hrender (writeAll_unchanged (s.outputsWith t) d)).1 summary hwrite
      rw [run_of_holdsText hrender (hunchanged hall)]
      refine ⟨_, rfl, List.any_eq_false.mpr fun r hr => ?_⟩
      obtain ⟨o, -, rfl⟩ := List.mem_map.mp hr
      exact Bool.false_ne_true

end Run

end CallBridge
