import CallBridge.Command.Execution
import CallBridge.Proofs.Command.Arguments
import CallBridge.Proofs.Run.Fixpoint
import CallBridge.Proofs.Run.Prediction

/-! # Checking and generating

Both commands read the same words, ask for the same settings and files, and run on them. A check
ends well if and only if a generation that does not deny warnings ends well and has nothing to
write.
-/
namespace CallBridge.Command

/-- The options ask for a run with some settings on some files. -/
structure RunOptions.AsksFor (o : RunOptions) (d : Disk) (here : Path) (s : Settings)
    (files : List Path) : Prop where
  format : o.format = "pretty" ∨ o.format = "json"
  settings : ∃ label, settingsOf d here (settingsPath? d here o.config) = .ok (s, label)
  files : filesOf d here s o.files = .ok files

theorem RunOptions.AsksFor.unique {o : RunOptions} {d : Disk} {here : Path} {s s' : Settings}
    {files files' : List Path} (h : o.AsksFor d here s files) (h' : o.AsksFor d here s' files') :
    s = s' ∧ files = files' := by
  obtain ⟨label, hlabel⟩ := h.settings
  obtain ⟨label', hlabel'⟩ := h'.settings
  rw [hlabel] at hlabel'
  obtain ⟨rfl, -⟩ := Prod.mk.inj (Except.ok.inj hlabel')
  have hfiles := h.files
  rw [h'.files] at hfiles
  exact ⟨rfl, (Except.ok.inj hfiles).symm⟩

section Exit
variable {d : Disk} {here : Path} {color : Bool} {name : String} {mode : Mode} {o : RunOptions}

theorem replyTo_exit_iff {format label : String} {deny : Bool} {r : Reported Summary} :
    (replyTo name format label color deny r).exit = 0 ↔
      ∃ summary, r.result = .ok summary ∧ passes deny r.diagnostics summary = true := by
  unfold replyTo
  split
  · next failure hfailure =>
    rw [hfailure]
    simp [Reply.failed, Reply.errorStatus]
  · next summary hsummary =>
    rw [hsummary]
    simp

/-- A command ends well if and only if the run that its options ask for passes. -/
theorem runWith_exit_iff : (runWith d here color name mode o).1.exit = 0 ↔
    ∃ s files summary, o.AsksFor d here s files ∧
      (d.run s mode files).report.result = .ok summary ∧
      passes o.denyWarnings (d.run s mode files).report.diagnostics summary = true := by
  unfold runWith
  split_ifs with hformat
  · constructor
    · intro h
      cases h
    · rintro ⟨s, files, summary, hasks, -⟩
      rcases hasks.format with h | h <;> simp [h] at hformat
  · have hformat : o.format = "pretty" ∨ o.format = "json" := by
      by_contra hneither
      simp_all
    dsimp only
    cases hsettings : settingsOf d here (settingsPath? d here o.config) with
    | error failure =>
      constructor
      · intro h
        cases h
      · rintro ⟨s, files, summary, ⟨-, ⟨label, hlabel⟩, -⟩, -⟩
        rw [hsettings] at hlabel
        cases hlabel
    | ok found =>
      obtain ⟨s, label⟩ := found
      have hsame : ∀ s' files, o.AsksFor d here s' files → s' = s := by
        rintro s' files ⟨-, ⟨label', hlabel⟩, -⟩
        rw [hsettings] at hlabel
        cases hlabel
        rfl
      dsimp only
      cases hfiles : filesOf d here s o.files with
      | error failure =>
        constructor
        · intro h
          cases h
        · rintro ⟨s', files, summary, hasks, -⟩
          obtain rfl := hsame s' files hasks
          have hok := hasks.files
          rw [hfiles] at hok
          cases hok
      | ok files =>
        dsimp only
        rw [replyTo_exit_iff]
        constructor
        · rintro ⟨summary, hresult, hpasses⟩
          exact ⟨s, files, summary, ⟨hformat, ⟨label, hsettings⟩, hfiles⟩, hresult, hpasses⟩
        · rintro ⟨s', files', summary, hasks, hresult, hpasses⟩
          obtain rfl := hsame s' files' hasks
          have hok := hasks.files
          rw [hfiles] at hok
          cases hok
          exact ⟨summary, hresult, hpasses⟩

end Exit

/-- If warnings are not denied, a run passes when no error was reported and no output is out of
date. -/
theorem passes_lenient_iff {ds : List Diagnostic} {summary : Summary} :
    passes false ds summary = true ↔ Diagnostic.count .error ds = 0 ∧ summary.isStale = false := by
  simp [passes]

theorem isStale_of_unchanged {summary : Summary}
    (h : ∀ r ∈ summary.outputs, r.status = .unchanged) : summary.isStale = false := by
  refine List.any_eq_false.mpr fun r hr => ?_
  rw [h r hr]
  decide

/-- A check ends well if and only if the generation with the same options ends well and finds every
output unchanged. -/
theorem check_exit_iff {d : Disk} {here : Path} {color : Bool} {o : RunOptions}
    (hlenient : o.denyWarnings = false) :
    (execute d here color (.check o)).1.exit = 0 ↔
      (execute d here color (.generate o)).1.exit = 0 ∧
      ∃ s files summary, o.AsksFor d here s files ∧
        (d.run s .write files).report.result = .ok summary ∧
        ∀ r ∈ summary.outputs, r.status = .unchanged := by
  have hsame : ({ o with denyWarnings := false } : RunOptions) = o := by
    rw [← hlenient]
  rw [execute, execute, hsame, runWith_exit_iff, runWith_exit_iff, hlenient]
  simp only [passes_lenient_iff]
  constructor
  · rintro ⟨s, files, checked, hasks, hcheck, herrors, hfresh⟩
    rw [diagnostics_of_run] at herrors
    obtain ⟨summary, hwrite, hall⟩ := fresh_iff_unchanged.mp ⟨checked, hcheck, hfresh⟩
    refine ⟨⟨s, files, summary, hasks, hwrite, ?_, isStale_of_unchanged hall⟩,
      s, files, summary, hasks, hwrite, hall⟩
    rw [diagnostics_of_run]
    exact herrors
  · rintro ⟨⟨s, files, summary, hasks, hwrite, herrors, -⟩, s', files', summary', hasks', hwrite',
      hall⟩
    obtain ⟨rfl, rfl⟩ := hasks.unique hasks'
    rw [diagnostics_of_run] at herrors
    obtain ⟨checked, hcheck, hfresh⟩ := fresh_iff_unchanged.mpr ⟨summary', hwrite', hall⟩
    refine ⟨s, files, checked, hasks, hcheck, ?_, hfresh⟩
    rw [diagnostics_of_run]
    exact herrors

/-- A check foretells a run that writes. Both report the same diagnostics; if the run that writes
succeeds, the check does, counts the same and says of each output what becomes of it; they fail
alike in front of the outputs; and on the command line a check ends well if and only if the
generation with the same words, which do not deny warnings, ends well and finds every output
unchanged. -/
theorem check_foretells_generation {s : Settings} (hs : s.Ready) {d : Disk}
    (hd : ∀ o ∈ s.resolvedOutputs.named, d.ComparesSteadily o.2) (files : List Path) :
    (d.run s .check files).report.diagnostics = (d.run s .write files).report.diagnostics ∧
    (∀ summary, (d.run s .write files).report.result = .ok summary →
      ∃ checked, (d.run s .check files).report.result = .ok checked ∧
        checked.files = summary.files ∧ checked.methods = summary.methods ∧
        checked.namespaces = summary.namespaces ∧
        List.Forall₂ OutputReport.Foretells checked.outputs summary.outputs) ∧
    (∀ failure, ((d.run s .check files).report.result = .error failure ↔
        (d.render s files).result = .error failure) ∧
      ((d.run s .write files).report.result = .error failure ∧ failure.outputsUntouched = true ↔
        (d.render s files).result = .error failure)) ∧
    ∀ front words o here color, (∀ word ∈ front, Verb.ofText? word = none) →
      (Request.ofArguments (front ++ "check" :: words) = .ok (.check o) ↔
        Request.ofArguments (front ++ "generate" :: words) = .ok (.generate o) ∧
          o.denyWarnings = false) ∧
      (Request.ofArguments (front ++ "check" :: words) = .ok (.check o) →
        ((execute d here color (.check o)).1.exit = 0 ↔
          (execute d here color (.generate o)).1.exit = 0 ∧
          ∃ s files summary, o.AsksFor d here s files ∧
            (d.run s .write files).report.result = .ok summary ∧
            ∀ r ∈ summary.outputs, r.status = .unchanged)) := by
  refine ⟨?_, fun summary hwrite => ?_, render_error_iff hs d files, fun front words o here color
    hfront => ⟨ofArguments_check_iff hfront, fun hcheck => ?_⟩⟩
  · rw [diagnostics_of_run, diagnostics_of_run]
  · cases hrender : (d.render s files).result with
    | error failure =>
      rw [run_of_render_error hrender] at hwrite
      cases hwrite
    | ok rendered =>
      obtain ⟨surface, t⟩ := rendered
      obtain rfl := outputs_of_write hs hd hrender hwrite
      rw [check_of_render_ok hrender]
      refine ⟨_, rfl, rfl, rfl, rfl, ?_⟩
      change List.Forall₂ _ ((s.outputsWith t).map (·.check d)) ((s.outputsWith t).map (·.written d))
      rw [List.forall₂_map_left_iff, List.forall₂_map_right_iff, List.forall₂_same]
      exact fun o _ => o.check_foretells d
  · exact check_exit_iff ((ofArguments_check_iff hfront).mp hcheck).2

theorem flat_check_foretells_generation :
    Settings.flat.Ready ∧
    (∀ o ∈ Settings.flat.resolvedOutputs.named,
      ({ tree := flatTree } : Disk).ComparesSteadily o.2) ∧
    ∃ summary checked,
      (({ tree := flatTree } : Disk).run .flat .write [⟨"/work/a.ts"⟩]).report.result =
        .ok summary ∧
      (({ tree := flatTree } : Disk).run .flat .check [⟨"/work/a.ts"⟩]).report.result =
        .ok checked ∧
      List.Forall₂ OutputReport.Foretells checked.outputs summary.outputs ∧
    let o : RunOptions := ⟨[⟨"a.ts"⟩], none, "pretty", false⟩
    Request.ofArguments ["-v", "check", "a.ts"] = .ok (.check o) ∧
      ((execute { tree := flatTree } ⟨"/work"⟩ false (.check o)).1.exit = 0 →
        (execute { tree := flatTree } ⟨"/work"⟩ false (.generate o)).1.exit = 0) := by
  have hsteady : ∀ o ∈ Settings.flat.resolvedOutputs.named,
      ({ tree := flatTree } : Disk).ComparesSteadily o.2 := fun _ _ _ => rfl
  have hok : (({ tree := flatTree } : Disk).run .flat .write
      [⟨"/work/a.ts"⟩]).report.result.isOk = true := by decide +kernel
  obtain ⟨summary, hwrite⟩ := exists_eq_ok hok
  obtain ⟨-, hchecked, -, hline⟩ :=
    check_foretells_generation Settings.ready_flat hsteady [⟨"/work/a.ts"⟩]
  obtain ⟨checked, hcheck, -, -, -, hreports⟩ := hchecked summary hwrite
  obtain ⟨-, hexit⟩ := hline ["-v"] ["a.ts"] ⟨[⟨"a.ts"⟩], none, "pretty", false⟩ ⟨"/work"⟩ false
    (by decide)
  have hread : Request.ofArguments ["-v", "check", "a.ts"] =
      .ok (.check ⟨[⟨"a.ts"⟩], none, "pretty", false⟩) := by decide +kernel
  exact ⟨Settings.ready_flat, hsteady, summary, checked, hwrite, hcheck, hreports, hread,
    fun h => ((hexit hread).mp h).1⟩

end CallBridge.Command
