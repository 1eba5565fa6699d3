import CallBridge.Proofs.Run.Outputs

/-! # Failures of a run

A run that fails before it writes leaves the disk as it is. A run that fails at an output has
replaced the outputs in front of it and left all other files as they were, and a run that succeeds
has replaced nothing but its outputs.
-/
namespace CallBridge

def Untouching {α : Type} (x : Except Failure α) : Prop :=
  ∀ f, x = .error f → f.outputsUntouched = true

section Untouching
variable {α β : Type}

theorem untouching_ok (a : α) : Untouching (.ok a) := by
  intro f h
  cases h

theorem untouching_bind {x : Except Failure α} {f : α → Except Failure β} (hx : Untouching x)
    (hf : ∀ a, Untouching (f a)) : Untouching (x >>= f) := by
  intro failure h
  cases x with
  | error e =>
    cases h
    exact hx _ rfl
  | ok a => exact hf a failure h

theorem untouching_foldlM {f : β → α → Except Failure β} (hf : ∀ b a, Untouching (f b a))
    (xs : List α) (start : β) : Untouching (xs.foldlM f start) := by
  induction xs generalizing start with
  | nil => exact untouching_ok start
  | cons x xs ih =>
    rw [List.foldlM_cons]
    exact untouching_bind (hf start x) fun next => ih next

end Untouching

theorem untouching_insertAll (s : Surface) (ms : List Method) : Untouching (s.insertAll ms) := by
  refine untouching_foldlM (fun s m => ?_) ms s
  unfold Surface.insert
  split
  · rintro f ⟨⟩
    rfl
  · exact untouching_ok _

theorem untouching_validate (s : Surface) : Untouching s.validate := by
  unfold Surface.validate
  split
  · rintro f ⟨⟩
    rfl
  · exact untouching_ok _

theorem untouching_add (s : Generated.ImportSet) (name : String) (source : ImportSource) :
    Untouching (s.add name source) := by
  unfold Generated.ImportSet.add
  split
  · split_ifs
    · exact untouching_ok _
    · rintro f ⟨⟩
      rfl
  · exact untouching_ok _

theorem untouching_importOwner (output : Path) (acc : Generated.Names × Generated.ImportSet)
    (m : Method) : Untouching (Generated.Backend.importOwner output acc m) := by
  unfold Generated.Backend.importOwner
  split
  · exact untouching_ok _
  · exact untouching_bind (untouching_add _ _ _) fun _ => untouching_ok _

theorem untouching_texts (s : Surface) (o : Generated.Outputs) (r : Generated.Runtime) :
    Untouching (Generated.texts s o r) := by
  unfold Generated.texts
  refine untouching_bind ?_ fun _ => untouching_bind ?_ fun _ => untouching_bind ?_ fun _ =>
    untouching_ok _
  · refine untouching_bind (untouching_bind ?_ fun start => untouching_bind ?_ fun _ => ?_) fun _ => ?_
    · exact untouching_foldlM (fun acc name => untouching_bind (untouching_add _ _ _) fun _ =>
        untouching_ok _) _ _
    · exact untouching_foldlM (untouching_importOwner o.backend) _ _
    · exact untouching_ok _
    · exact untouching_ok _
  · exact untouching_bind (untouching_foldlM (fun set name => untouching_add _ _ _) _ _) fun _ =>
      untouching_ok _
  · exact untouching_bind (untouching_foldlM (fun set t => untouching_add _ _ _) _ _) fun _ =>
      untouching_ok _

theorem untouching_merge (s : Surface) (ys : List Yield) : Untouching (s.merge ys).result := by
  induction ys generalizing s with
  | nil => exact untouching_bind (untouching_validate s) fun _ => untouching_ok _
  | cons y ys ih =>
    have hinsert := untouching_insertAll s y.methods
    unfold Surface.merge
    cases hs : s.insertAll y.methods with
    | error failure =>
      rintro f ⟨⟩
      exact hinsert _ hs
    | ok s' => exact ih s'

theorem untouching_render (d : Disk) (s : Settings) (files : List Path) :
    Untouching (d.render s files).result := by
  refine untouching_bind (untouching_merge _ _) fun surface => ?_
  exact untouching_bind (untouching_texts _ _ _) fun _ => untouching_ok _

variable {s : Settings}

theorem run_write_cases (hs : s.Ready) (d : Disk) (files : List Path) :
    (∃ failure, (d.run s .write files).report.result = .error failure ∧
      failure.outputsUntouched = true ∧ (d.run s .write files).disk = d) ∨
    ∃ surface t, (d.render s files).result = .ok (surface, t) ∧
      ((∃ summary, (d.run s .write files).report.result = .ok summary ∧
        d.Holds (d.run s .write files).disk (s.outputsWith t)) ∨
      ∃ done o rest fault, s.outputsWith t = done ++ o :: rest ∧
        (d.run s .write files).report.result = .error (.write o.path fault) ∧
        d.Holds (d.run s .write files).disk done) := by
  cases hrender : (d.render s files).result with
  | error failure =>
    rw [run_of_render_error hrender]
    exact .inl ⟨failure, rfl, untouching_render d s files _ hrender, rfl⟩
  | ok rendered =>
    obtain ⟨surface, t⟩ := rendered
    have hends := writeAll_ends (hs.located_of_mem t) (hs.locations_nodup t) d
    refine .inr ⟨surface, t, rfl, ?_⟩
    rw [run_of_render_ok hrender]
    unfold Ends at hends
    change (∃ summary, (((s.outputsWith t).mapM Output.write).run.run d).1.map _ = _ ∧
      d.Holds (((s.outputsWith t).mapM Output.write).run.run d).2 _) ∨ ∃ done o rest fault, _ ∧
      (((s.outputsWith t).mapM Output.write).run.run d).1.map _ = _ ∧
      d.Holds (((s.outputsWith t).mapM Output.write).run.run d).2 done
    cases hrun : ((s.outputsWith t).mapM Output.write).run.run d with
    | mk r d' =>
      rw [hrun] at hends
      cases r with
      | ok reports => exact .inl ⟨_, rfl, hends⟩
      | error failure =>
        obtain ⟨done, o, rest, fault, hos, rfl, hholds⟩ := hends
        exact .inr ⟨done, o, rest, fault, hos, rfl, hholds⟩

/-- Outputs hold their texts, and every other file is as it was. -/
structure Disk.Replaced (d d' : Disk) (os : List Output) : Prop where
  held : ∀ o ∈ os, d'.tree.read [] o.path = .ok o.text.toUTF8
  others : ∀ l bytes, l ∉ os.map (fun o => o.path.location) →
    (d'.tree.get? l = some (.file bytes) ↔ d.tree.get? l = some (.file bytes))

theorem Disk.Holds.replaced {d d' : Disk} {os : List Output} (h : d.Holds d' os)
    (hlocated : ∀ o ∈ os, o.path.Located) : d.Replaced d' os := by
  refine ⟨fun o ho => ?_, fun l bytes hl => h.changed.tree.get?_eq_file_iff hl⟩
  have hpath := hlocated o ho
  rw [hpath.eq, FileTree.read_ofLocation_eq_ok_iff hpath.named]
  exact h.held o ho

theorem Disk.Holds.read_iff {d d' : Disk} {os : List Output} (h : d.Holds d' os) {p : Path}
    (hp : p.Located) (hnew : p.location ∉ os.map fun o => o.path.location) (bytes : ByteArray) :
    d'.tree.read [] p = .ok bytes ↔ d.tree.read [] p = .ok bytes := by
  rw [hp.eq, FileTree.read_ofLocation_eq_ok_iff hp.named, FileTree.read_ofLocation_eq_ok_iff hp.named]
  exact h.changed.tree.get?_eq_file_iff hnew

/-- A check changes nothing. A run that writes and fails without touching an output changes nothing
either; if it fails at an output, those in front of it hold their new texts, it and those behind it
read as before, and so does every other file; and if it succeeds, all outputs hold their texts and
every other file is as before. -/
theorem run_atomic (hs : s.Ready) (d : Disk) (files : List Path) :
    (d.run s .check files).disk = d ∧
    (∀ failure, (d.run s .write files).report.result = .error failure →
      failure.outputsUntouched = true → (d.run s .write files).disk = d) ∧
    (∀ p fault, (d.run s .write files).report.result = .error (.write p fault) →
      ∃ surface t done o rest, (d.render s files).result = .ok (surface, t) ∧
        s.outputsWith t = done ++ o :: rest ∧ o.path = p ∧
        d.Replaced (d.run s .write files).disk done ∧
        ∀ q ∈ o :: rest, ∀ bytes, (d.run s .write files).disk.tree.read [] q.path = .ok bytes ↔
          d.tree.read [] q.path = .ok bytes) ∧
    ∀ summary, (d.run s .write files).report.result = .ok summary →
      ∃ surface t, (d.render s files).result = .ok (surface, t) ∧
        d.Replaced (d.run s .write files).disk (s.outputsWith t) := by
  refine ⟨?_, fun failure hresult huntouched => ?_, fun p fault hresult => ?_,
    fun summary hresult => ?_⟩
  · cases hrender : (d.render s files).result with
    | error failure => rw [run_of_render_error hrender]
    | ok rendered =>
      rw [run_of_render_ok hrender]
      rfl
  · rcases run_write_cases hs d files with ⟨-, -, -, hdisk⟩ |
      ⟨surface, t, -, ⟨summary, hok, -⟩ | ⟨-, o, -, fault, -, hwrite, -⟩⟩
    · exact hdisk
    · rw [hok] at hresult
      cases hresult
    · rw [hwrite] at hresult
      cases hresult
      cases huntouched
  · rcases run_write_cases hs d files with ⟨failure, herror, huntouched, -⟩ |
      ⟨surface, t, hrender, ⟨summary, hok, -⟩ | ⟨done, o, rest, fault', hos, hwrite, hholds⟩⟩
    · rw [herror] at hresult
      cases hresult
      cases huntouched
    · rw [hok] at hresult
      cases hresult
    · rw [hwrite] at hresult
      cases hresult
      have hlocated := hs.located_of_mem t
      have hnodup := hs.locations_nodup t
      rw [hos] at hlocated hnodup
      refine ⟨surface, t, done, o, rest, hrender, hos, rfl, hholds.replaced fun q hq => ?_,
        fun q hq => hholds.read_iff (hlocated q (List.mem_append_right _ hq)) fun hmem => ?_⟩
      · exact hlocated q (List.mem_append_left _ hq)
      · rw [List.map_append] at hnodup
        exact (List.nodup_append.mp hnodup).2.2 _ hmem _ (List.mem_map_of_mem hq) rfl
  · rcases run_write_cases hs d files with ⟨failure, herror, -, -⟩ |
      ⟨surface, t, hrender, ⟨summary', -, hholds⟩ | ⟨-, o, -, fault, -, hwrite, -⟩⟩
    · rw [herror] at hresult
      cases hresult
    · exact ⟨surface, t, hrender, hholds.replaced (hs.located_of_mem t)⟩
    · rw [hwrite] at hresult
      cases hresult

/-- A disk that is full when the bridge module is to take its place. -/
def fullDisk : Disk where
  tree := .empty
  refuses _ a :=
    if a = .replace ⟨"/work/preload.ts"⟩ then some (.other "No space left on device (os error 28)")
    else none

theorem full_run_atomic :
    Settings.flat.Ready ∧ ∃ surface t done o rest,
      (fullDisk.render .flat []).result = .ok (surface, t) ∧
      Settings.flat.outputsWith t = done ++ o :: rest ∧ o.path = ⟨"/work/preload.ts"⟩ ∧
      fullDisk.Replaced (fullDisk.run .flat .write []).disk done := by
  have hresult : (fullDisk.run .flat .write []).report.result = .error
      (.write ⟨"/work/preload.ts"⟩ (.other "No space left on device (os error 28)")) := by
    decide +kernel
  obtain ⟨-, -, hwrite, -⟩ := run_atomic Settings.ready_flat fullDisk []
  obtain ⟨surface, t, done, o, rest, hrender, hos, hpath, hreplaced, -⟩ := hwrite _ _ hresult
  exact ⟨Settings.ready_flat, surface, t, done, o, rest, hrender, hos, hpath, hreplaced⟩

end CallBridge
