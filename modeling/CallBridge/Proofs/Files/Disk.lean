import CallBridge.Disk
import CallBridge.Proofs.Action
import CallBridge.Proofs.Files.Tree

/-! # What actions leave of a disk

Making directories changes no file. Replacing a file ends with the text in its place, or with all
files as they were: what was put into a temporary file is gone when an access to it fails.
-/
namespace CallBridge.Disk

variable {d d' d'' : Disk} {ls ks : List Location}

theorem ends_update {change : FileTree → Except FileFault FileTree} {ok : Unit → Disk → Prop}
    {bad : FileFault → Disk → Prop} (hok : ∀ t, change d.tree = .ok t → ok () { d with tree := t })
    (hbad : ∀ fault, change d.tree = .error fault → bad fault d) : Ends (update change) d ok bad := by
  unfold update
  refine ends_bind (ends_get ?_)
  cases h : change d.tree with
  | ok t =>
    unfold Ends
    exact hok t h
  | error fault => exact ends_throw (hbad fault h)

theorem ends_demand {a : Access} {ok : Unit → Disk → Prop} {bad : FileFault → Disk → Prop}
    (hok : ok () d) (hbad : ∀ fault, bad fault d) : Ends (demand a) d ok bad := by
  unfold demand
  refine ends_bind (ends_get ?_)
  cases d.allow a with
  | ok u => exact ends_pure hok
  | error fault => exact ends_throw (hbad fault)

structure Changed (ls : List Location) (d d' : Disk) : Prop where
  refuses : d'.refuses = d.refuses
  tree : FileTree.Changed ls d.tree d'.tree

theorem Changed.refl (ls : List Location) (d : Disk) : Changed ls d d :=
  ⟨rfl, .refl ls d.tree⟩

theorem Changed.trans (h : Changed ls d d') (h' : Changed ls d' d'') : Changed ls d d'' :=
  ⟨h'.refuses.trans h.refuses, h.tree.trans h'.tree⟩

theorem Changed.mono (h : Changed ls d d') (hls : ls ⊆ ks) : Changed ks d d' :=
  ⟨h.refuses, h.tree.mono hls⟩

theorem makeDirectory_ends (here : Location) (p : Path) (d : Disk) :
    Ends (makeDirectory here p) d (fun _ => Changed [] d) fun _ => Changed [] d := by
  unfold makeDirectory
  refine ends_bind (ends_demand (ends_update (fun t h => ?_) fun _ _ => .refl _ _) fun _ => .refl _ _)
  obtain ⟨l, -, h⟩ := bind_eq_ok_iff.mp h
  exact ⟨rfl, FileTree.changed_makeDirectory h⟩

theorem makeDirectories_ends (here : Location) (cs : List Component) (d : Disk) :
    Ends (makeDirectories here cs) d (fun _ => Changed [] d) fun _ => Changed [] d := by
  induction cs generalizing d with
  | nil => exact ends_pure (.refl _ _)
  | cons last before ih =>
    unfold makeDirectories
    have hthere : ∀ (fault : FileFault) (d' : Disk), Changed [] d d' →
        Ends (do if (← get).tree.isDirectory here (Path.ofComponents (last :: before).reverse) then
          return else throw fault : DiskAction Unit) d' (fun _ => Changed [] d)
          fun _ => Changed [] d := by
      intro fault d' h
      refine ends_bind (ends_get ?_)
      split_ifs
      · exact ends_pure h
      · exact ends_throw h
    refine ends_tryCatch ((makeDirectory_ends here _ d).mono (fun _ _ h => h) fun fault d' h => ?_)
    cases fault with
    | missing =>
      refine ends_bind ((ih d').mono (fun _ d'' h' => ?_) fun _ _ h' => h.trans h')
      refine ends_tryCatch ((makeDirectory_ends here _ d'').mono (fun _ _ h'' => ?_)
        fun fault _ h'' => ?_)
      · exact (h.trans h').trans h''
      · exact hthere fault _ ((h.trans h').trans h'')
    | alreadyExists => exact hthere _ d' h
    | notDirectory => exact hthere _ d' h
    | isDirectory => exact hthere _ d' h
    | other text => exact hthere _ d' h

variable {p directory : Path} {temporary l : Location} {bytes : ByteArray}

theorem createTemporary_ends (p directory : Path) (d : Disk) :
    Ends (createTemporary p directory) d
      (fun temporary d' => Changed [temporary] d d' ∧ d.tree.get? temporary = none ∧
        d'.tree.get? temporary = some (.file .empty))
      fun _ d' => d' = d := by
  unfold createTemporary
  refine ends_bind (ends_demand (ends_bind (ends_get (ends_bind
    (ends_liftM (fun here _ => ?_) fun _ _ => rfl)))) fun _ => rfl)
  obtain ⟨n, -, hplace, hnone⟩ := d.tree.freePlace_eq here
  refine ends_bind (ends_update (fun t ht => ?_) fun _ _ => rfl)
  obtain ⟨hchanged, hfile⟩ := FileTree.changed_writeFile ht
  exact ends_pure ⟨⟨rfl, hchanged⟩, hplace ▸ hnone, hfile⟩

theorem fill_ends (p : Path) (text : String) (temporary : Location) (d : Disk) :
    Ends (fill p temporary text) d
      (fun _ d' => Changed [temporary] d d' ∧ d'.tree.get? temporary = some (.file text.toUTF8))
      fun _ d' => d' = d := by
  unfold fill
  refine ends_bind (ends_demand (ends_update (fun t ht => ?_) fun _ _ => rfl) fun _ => rfl)
  obtain ⟨hchanged, hfile⟩ := FileTree.changed_writeFile ht
  exact ⟨⟨rfl, hchanged⟩, hfile⟩

theorem rename_ends (hl : ∀ n ∈ l, isFileName n = true)
    (htemporary : d.tree.get? temporary = some (.file bytes)) :
    Ends (rename (.ofLocation l) temporary) d
      (fun _ d' => Changed [temporary, l] d d' ∧ d'.tree.get? l = some (.file bytes) ∧
        (temporary ≠ l → d'.tree.get? temporary = none))
      fun _ d' => d' = d := by
  unfold rename
  refine ends_bind (ends_demand (ends_update (fun t ht => ?_) fun _ _ => rfl) fun _ => rfl)
  obtain ⟨m, hm, ht⟩ := bind_eq_ok_iff.mp ht
  obtain rfl := FileTree.locate_ofLocation_eq_ok hl hm
  split_ifs at ht
  obtain ⟨b, hb, hchanged, hfile, hnone⟩ := FileTree.changed_moveFile ht
  obtain rfl : bytes = b := by simpa [htemporary] using hb
  exact ⟨⟨rfl, hchanged⟩, hfile, hnone⟩

/-- Replacing a file ends with the text in its place, or with all files as they were. -/
theorem replace_ends (hl : ∀ n ∈ l, isFileName n = true) (text : String) (d : Disk) :
    Ends (replace (.ofLocation l) text) d
      (fun _ d' => Changed [l] d d' ∧ d'.tree.get? l = some (.file text.toUTF8))
      fun _ => Changed [] d := by
  unfold replace
  generalize (Path.ofLocation l).parent?.getD ⟨"."⟩ = directory
  dsimp only
  refine ends_bind ((makeDirectories_ends [] _ d).mono (fun _ d₁ h₁ => ?_) fun _ _ h => h)
  refine ends_bind ((createTemporary_ends _ _ d₁).mono (fun temporary d₂ h₂ => ?_)
    fun _ d₂ h₂ => h₂ ▸ h₁)
  obtain ⟨hcreated, hfree, hempty⟩ := h₂
  have hlocal : ∀ {d'}, Changed [temporary] d₂ d' → Changed [temporary] d d' := fun h =>
    (h₁.mono (List.nil_subset _)).trans (hcreated.trans h)
  have hnofile : ∀ b, d.tree.get? temporary ≠ some (.file b) := by
    intro b hb
    have hkept := (h₁.tree.get?_eq_file_iff List.not_mem_nil).mpr hb
    rw [hfree] at hkept
    cases hkept
  -- Whatever the temporary file holds when an access fails, it is taken away again.
  have hcleared : ∀ {d'} {b}, Changed [temporary] d₂ d' → d'.tree.get? temporary = some (.file b) →
      Changed [] d { d' with tree := d'.tree.remove temporary } := by
    intro d' b h hb
    have hremoved := FileTree.changed_remove hb
    refine ⟨(hlocal h).refuses, ((hlocal h).tree.trans hremoved).of_cons hnofile fun c hc => ?_⟩
    rw [FileTree.get?_remove hb, if_pos rfl] at hc
    cases hc
  refine ends_tryCatch ?_
  refine ends_bind ((fill_ends _ text temporary d₂).mono (fun _ d₃ h₃ => ?_) fun fault d₃ h₃ => ?_)
  · obtain ⟨hfilled, hfile⟩ := h₃
    refine (rename_ends hl hfile).mono (fun _ d₄ h₄ => ?_) fun fault d₄ h₄ => ?_
    · obtain ⟨hrenamed, htext, hnone⟩ := h₄
      have hchanged : Changed [temporary, l] d d₄ :=
        ((hlocal hfilled).mono (by simp)).trans hrenamed
      refine ⟨?_, htext⟩
      by_cases hne : temporary = l
      · exact hchanged.mono (by simp [hne])
      · refine ⟨hchanged.refuses, hchanged.tree.of_cons hnofile fun b hb => ?_⟩
        rw [hnone hne] at hb
        cases hb
    · subst h₄
      exact ends_bind (ends_modify (ends_throw (hcleared hfilled hfile)))
  · subst h₃
    exact ends_bind (ends_modify (ends_throw (hcleared (.refl _ _) hempty)))

end CallBridge.Disk
