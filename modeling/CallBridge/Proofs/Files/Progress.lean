import CallBridge.Proofs.Files.Disk

/-! # What a disk lets be done

A disk that refuses no access that changes it lets directories be made along every way on which no
file stands, and a file be put wherever nothing stands. What stands anywhere afterwards is known from
what stood there before.
-/
namespace CallBridge

theorem prefix_iff_dropLast {l m : Location} (hl : l ≠ []) :
    m <+: l ↔ m = l ∨ m <+: l.dropLast := by
  rcases List.eq_nil_or_concat' l with h | ⟨init, n, rfl⟩
  · exact absurd h hl
  · rw [List.prefix_concat_iff, List.dropLast_concat]

theorem not_prefix_dropLast {l : Location} (hl : l ≠ []) : ¬ l <+: l.dropLast := by
  intro h
  have hlength := h.length_le
  have hpos := List.length_pos_iff.mpr hl
  rw [List.length_dropLast] at hlength
  omega

namespace FileTree

variable {t : FileTree} {l m : Location} {bytes : ByteArray}

def Passable (t : FileTree) (l : Location) : Prop :=
  ∀ m, m <+: l → t.get? m = none ∨ t.get? m = some .directory

/-- Nothing stands at the location, and nothing but directories above it. -/
structure Vacant (t : FileTree) (l : Location) : Prop where
  free : t.get? l = none
  above : ∀ m, m <+: l → m ≠ l → t.get? m = none ∨ t.get? m = some .directory

theorem Passable.of_isPrefix (h : t.Passable l) (hm : m <+: l) : t.Passable m :=
  fun k hk => h k (hk.trans hm)

theorem Vacant.passable (h : t.Vacant l) : t.Passable l := by
  intro m hm
  by_cases hml : m = l
  · exact .inl (hml ▸ h.free)
  · exact h.above m hm hml

theorem Vacant.ne_nil (h : t.Vacant l) : l ≠ [] := by
  rintro rfl
  cases h.free

theorem get?_of_isPrefix (h : t.get? l = some .directory) (hm : m <+: l) :
    t.get? m = some .directory := by
  obtain ⟨rest, rfl⟩ := hm
  by_cases hrest : rest = []
  · simpa [hrest] using h
  · exact get?_of_append hrest h

theorem writeFile_of_directory (hl : ∀ n ∈ l, isFileName n = true)
    (hd : t.get? l.dropLast = some .directory) (hf : t.get? l ≠ some .directory)
    (bytes : ByteArray) :
    ∃ t', t.writeFile l bytes = .ok t' ∧
      ∀ m, t'.get? m = if m = l then some (.file bytes) else t.get? m := by
  have hne : l ≠ [] := by
    rintro rfl
    exact hf rfl
  refine ⟨t.place l (.file bytes) hne hl hd hf, ?_, fun m => get?_place hne hl hd hf m⟩
  unfold writeFile
  rw [dif_neg hne, dif_pos hl]
  split
  · next h => simp [h] at hd
  · next h => simp [h] at hd
  · rw [dif_neg hf]

theorem makeDirectory_of_directory (hl : ∀ n ∈ l, isFileName n = true)
    (hd : t.get? l.dropLast = some .directory) (hf : t.get? l = none) :
    ∃ t', t.makeDirectory l = .ok t' ∧
      ∀ m, t'.get? m = if m = l then some .directory else t.get? m := by
  have hne : l ≠ [] := by
    rintro rfl
    cases hf
  have hnone : t.get? l ≠ some .directory := by simp [hf]
  refine ⟨t.place l .directory hne hl hd hnone, ?_, fun m => get?_place hne hl hd hnone m⟩
  unfold makeDirectory
  rw [dif_neg hne, dif_pos hl]
  split
  · next h => simp [h] at hd
  · next h => simp [h] at hd
  · split
    · next h => simp [h] at hf
    · rfl

theorem makeDirectory_there (hl : ∀ n ∈ l, isFileName n = true)
    (h : t.get? l = some .directory) : t.makeDirectory l = .error .alreadyExists := by
  unfold makeDirectory
  by_cases hne : l = []
  · rw [dif_pos hne]
  rw [dif_neg hne, dif_pos hl]
  have hd := get?_dropLast h
  split
  · next h' => simp [h'] at hd
  · next h' => simp [h'] at hd
  · split
    · rfl
    · next h' => simp [h'] at h

theorem foldlM_follow_missing {ns : List String} (hns : ns ≠ [])
    (hp : t.Passable (l ++ ns.dropLast)) (h : t.get? (l ++ ns.dropLast) = none) :
    (ns.map .normal).foldlM t.follow l = .error .missing := by
  induction ns generalizing l with
  | nil => exact absurd rfl hns
  | cons n ns ih =>
    rw [List.map_cons, List.foldlM_cons]
    rcases hp l (List.prefix_append _ _) with hnone | hdirectory
    · simp only [follow, hnone]
      rfl
    · have hnil : ns ≠ [] := by
        rintro rfl
        rw [List.dropLast_singleton, List.append_nil, hdirectory] at h
        cases h
      rw [follow_normal hdirectory]
      change (ns.map .normal).foldlM t.follow (l ++ [n]) = _
      rw [List.dropLast_cons_of_ne_nil hnil, List.append_cons] at hp h
      exact ih hnil hp h

theorem locate_missing (hl : ∀ n ∈ l, isFileName n = true) (hp : t.Passable l)
    (h : t.get? l.dropLast = none) : t.locate [] (.ofLocation l) = .error .missing := by
  have hne : l ≠ [] := by
    rintro rfl
    cases h
  rw [locate_ofLocation_eq t hl]
  exact foldlM_follow_missing hne (hp.of_isPrefix (List.dropLast_prefix l)) h

theorem isDirectory_ofLocation (hl : ∀ n ∈ l, isFileName n = true)
    (h : t.get? l = some .directory) : t.isDirectory [] (.ofLocation l) = true := by
  simp [isDirectory, locate_ofLocation hl (get?_dropLast h), h]

/-- A file can be moved to a place in a directory where nothing stands but the file itself. -/
theorem moveFile_of_directory (hm : ∀ n ∈ m, isFileName n = true)
    (hsource : t.get? l = some (.file bytes)) (hd : t.get? m.dropLast = some .directory)
    (hfree : m = l ∨ t.get? m = none) :
    ∃ t', t.moveFile l m = .ok t' ∧
      ∀ k, t'.get? k = if k = m then some (.file bytes) else if k = l then none else t.get? k := by
  have hparent : m.dropLast ≠ l := by
    intro hml
    rw [hml, hsource] at hd
    cases hd
  have hd' : (t.remove l).get? m.dropLast = some .directory := by
    rw [get?_remove hsource, if_neg hparent, hd]
  have hf' : (t.remove l).get? m ≠ some .directory := by
    rw [get?_remove hsource]
    split_ifs with hml
    · simp
    · simp [hfree.resolve_left hml]
  obtain ⟨t', ht', hget⟩ := writeFile_of_directory hm hd' hf' bytes
  refine ⟨t', ?_, fun k => ?_⟩
  · unfold moveFile
    rw [hsource]
    exact ht'
  · rw [hget, get?_remove hsource]

end FileTree

namespace Disk

variable {d d' : Disk} {l : Location}

structure Granting (d : Disk) : Prop where
  makeDirectory : ∀ t p, d.refuses t (.makeDirectory p) = none
  createTemporary : ∀ t p, d.refuses t (.createTemporary p) = none
  fill : ∀ t p, d.refuses t (.fill p) = none
  replace : ∀ t p, d.refuses t (.replace p) = none

structure Shows (d d' : Disk) (shown : Location → Option Entry) : Prop where
  refuses : d'.refuses = d.refuses
  get? : ∀ m, d'.tree.get? m = shown m

theorem Shows.granting {shown : Location → Option Entry} (h : d.Shows d' shown)
    (hd : d.Granting) : d'.Granting := by
  constructor <;> intro t p <;> rw [h.refuses]
  · exact hd.makeDirectory t p
  · exact hd.createTemporary t p
  · exact hd.fill t p
  · exact hd.replace t p

theorem ends_demand_of_allowed {a : Access} {ok : Unit → Disk → Prop}
    {bad : FileFault → Disk → Prop} (h : d.refuses d.tree a = none) (hok : ok () d) :
    Ends (demand a) d ok bad := by
  unfold demand
  refine ends_bind (ends_get ?_)
  simp only [allow, h]
  exact ends_pure hok

theorem ends_update_of_ok {change : FileTree → Except FileFault FileTree}
    {ok : Unit → Disk → Prop} {bad : FileFault → Disk → Prop} {t : FileTree}
    (h : change d.tree = .ok t) (hok : ok () { d with tree := t }) :
    Ends (update change) d ok bad := by
  refine ends_update (fun t' ht' => ?_) fun fault hfault => ?_
  · obtain rfl := Except.ok.inj (h.symm.trans ht')
    exact hok
  · rw [h] at hfault
    cases hfault

theorem ends_update_of_error {change : FileTree → Except FileFault FileTree}
    {ok : Unit → Disk → Prop} {bad : FileFault → Disk → Prop} {fault : FileFault}
    (h : change d.tree = .error fault) (hbad : bad fault d) : Ends (update change) d ok bad := by
  refine ends_update (fun t ht => ?_) fun fault' hfault => ?_
  · rw [h] at ht
    cases ht
  · obtain rfl := Except.error.inj (h.symm.trans hfault)
    exact hbad

/-- Directories stand wherever the way to a location leads, and nothing else has changed. -/
def Opens (l : Location) (d d' : Disk) : Prop :=
  d.Shows d' fun m => if m <+: l then some .directory else d.tree.get? m

theorem opens_self (h : d.tree.get? l = some .directory) : Opens l d d := by
  refine ⟨rfl, fun m => ?_⟩
  split_ifs with hm
  · exact FileTree.get?_of_isPrefix h hm
  · rfl

theorem Opens.get?_self (h : Opens l d d') : d'.tree.get? l = some .directory := by
  rw [h.get?, if_pos List.prefix_rfl]

theorem Opens.get?_below (h : Opens l d d') {m : Location} (hm : ¬ m <+: l) :
    d'.tree.get? m = d.tree.get? m := by
  rw [h.get?, if_neg hm]

section Directories
variable (hd : d.Granting) (hl : ∀ n ∈ l, isFileName n = true)
include hd hl

theorem makeDirectory_of_directory (hparent : d.tree.get? l.dropLast = some .directory)
    (hfree : d.tree.get? l = none) :
    Ends (makeDirectory [] (.ofLocation l)) d
      (fun _ d' => d.Shows d' fun m => if m = l then some .directory else d.tree.get? m)
      fun _ _ => False := by
  unfold makeDirectory
  refine ends_bind (ends_demand_of_allowed (hd.makeDirectory _ _) ?_)
  obtain ⟨t, ht, hget⟩ := FileTree.makeDirectory_of_directory hl hparent hfree
  refine ends_update_of_ok (t := t) ?_ ⟨rfl, hget⟩
  rw [FileTree.locate_ofLocation hl hparent]
  exact ht

theorem makeDirectory_there (hthere : d.tree.get? l = some .directory) :
    Ends (makeDirectory [] (.ofLocation l)) d (fun _ _ => False)
      fun fault d' => fault = .alreadyExists ∧ d' = d := by
  unfold makeDirectory
  refine ends_bind (ends_demand_of_allowed (hd.makeDirectory _ _) ?_)
  refine ends_update_of_error (?_ : _ = Except.error FileFault.alreadyExists) ⟨rfl, rfl⟩
  rw [FileTree.locate_ofLocation hl (FileTree.get?_dropLast hthere)]
  exact FileTree.makeDirectory_there hl hthere

theorem makeDirectory_missing (hp : d.tree.Passable l)
    (hmissing : d.tree.get? l.dropLast = none) :
    Ends (makeDirectory [] (.ofLocation l)) d (fun _ _ => False)
      fun fault d' => fault = .missing ∧ d' = d := by
  unfold makeDirectory
  refine ends_bind (ends_demand_of_allowed (hd.makeDirectory _ _) ?_)
  refine ends_update_of_error (?_ : _ = Except.error FileFault.missing) ⟨rfl, rfl⟩
  rw [FileTree.locate_missing hl hp hmissing]
  rfl

theorem makeDirectories_there (hthere : d.tree.get? l = some .directory) :
    Ends (makeDirectories [] (Component.root :: l.map .normal).reverse) d (fun _ d' => Opens l d d')
      fun _ _ => False := by
  obtain ⟨last, before, hsteps⟩ :=
    List.exists_cons_of_ne_nil (l := (Component.root :: l.map .normal).reverse) (by simp)
  have hpath : Path.ofComponents (last :: before).reverse = .ofLocation l := by
    rw [← hsteps, List.reverse_reverse]
    rfl
  rw [hsteps]
  unfold makeDirectories
  rw [hpath]
  refine ends_tryCatch ((makeDirectory_there hd hl hthere).mono (fun _ _ h => h.elim) ?_)
  rintro _ _ ⟨rfl, rfl⟩
  refine ends_bind (ends_get ?_)
  rw [if_pos (FileTree.isDirectory_ofLocation hl hthere)]
  exact ends_pure (opens_self hthere)

omit hl in
theorem makeDirectory_opens {d₁ : Disk} {n : String} (h₁ : Opens l d d₁)
    (hn : ∀ m ∈ l ++ [n], isFileName m = true) (hfree : d.tree.get? (l ++ [n]) = none) :
    Ends (makeDirectory [] (.ofLocation (l ++ [n]))) d₁ (fun _ d' => Opens (l ++ [n]) d d')
      fun _ _ => False := by
  have hparent : d₁.tree.get? (l ++ [n]).dropLast = some .directory := by
    rw [List.dropLast_concat]
    exact h₁.get?_self
  have hfree₁ : d₁.tree.get? (l ++ [n]) = none := by
    rw [h₁.get?_below, hfree]
    exact fun h => absurd h.length_le (by simp)
  refine (makeDirectory_of_directory (h₁.granting hd) hn hparent hfree₁).mono
    (fun _ d' h => ⟨h.refuses.trans h₁.refuses, fun m => ?_⟩) fun _ _ h => h
  rw [h.get?, h₁.get?]
  simp only [List.prefix_concat_iff, ite_or]

theorem makeDirectories_of_passable (hp : d.tree.Passable l) :
    Ends (makeDirectories [] (Component.root :: l.map .normal).reverse) d (fun _ d' => Opens l d d')
      fun _ _ => False := by
  induction l using List.reverseRecOn generalizing d with
  | nil => exact makeDirectories_there hd hl (FileTree.get?_nil _)
  | append_singleton l n ih =>
    have hl' : ∀ m ∈ l, isFileName m = true := fun m hm => hl m (List.mem_append_left _ hm)
    have hdrop : (l ++ [n]).dropLast = l := List.dropLast_concat
    rcases hp _ List.prefix_rfl with hfree | hthere
    case inr => exact makeDirectories_there hd hl hthere
    have hsteps : (Component.root :: (l ++ [n]).map .normal).reverse =
        .normal n :: (Component.root :: l.map .normal).reverse := by simp
    have hpath : Path.ofComponents
        (.normal n :: (Component.root :: l.map .normal).reverse).reverse =
          .ofLocation (l ++ [n]) := by
      rw [← hsteps, List.reverse_reverse]
      rfl
    rw [hsteps]
    unfold makeDirectories
    rw [hpath]
    -- The last directory is made in the one before it, which may have to be made first.
    rcases hp l (List.prefix_append _ _) with hmissing | hparent
    · refine ends_tryCatch ((makeDirectory_missing hd hl hp (by rwa [hdrop])).mono
        (fun _ _ h => h.elim) ?_)
      rintro _ _ ⟨rfl, rfl⟩
      refine ends_bind ((ih hd hl' (hp.of_isPrefix (List.prefix_append _ _))).mono
        (fun _ d₁ h₁ => ?_) fun _ _ h => h)
      exact ends_tryCatch ((makeDirectory_opens hd h₁ hl hfree).mono (fun _ _ h => h)
        fun _ _ h => h.elim)
    · exact ends_tryCatch ((makeDirectory_opens hd (opens_self hparent) hl hfree).mono
        (fun _ _ h => h) fun _ _ h => h.elim)

end Directories

variable {temporary : Location} {bytes : ByteArray}

theorem createTemporary_of_directory (hd : d.Granting) (hl : ∀ n ∈ l, isFileName n = true)
    (hthere : d.tree.get? l = some .directory) (p : Path) :
    Ends (createTemporary p (.ofLocation l)) d
      (fun temporary d' => d.tree.get? temporary = none ∧
        d.Shows d' fun m => if m = temporary then some (.file .empty) else d.tree.get? m)
      fun _ _ => False := by
  have hlocate := FileTree.locate_ofLocation hl (FileTree.get?_dropLast hthere)
  unfold createTemporary
  refine ends_bind (ends_demand_of_allowed (hd.createTemporary _ _) (ends_bind (ends_get (ends_bind
    (ends_liftM (fun here hhere => ?_) fun fault hfault => ?_)))))
  · obtain rfl : l = here := Except.ok.inj (hlocate.symm.trans hhere)
    obtain ⟨n, hn, hplace, hnone⟩ := d.tree.freePlace_eq l
    rw [hplace]
    have hnames : ∀ m ∈ l ++ [n], isFileName m = true := by
      intro m hm
      rcases List.mem_append.mp hm with hm | hm
      · exact hl m hm
      · exact List.mem_singleton.mp hm ▸ hn
    obtain ⟨t, ht, hget⟩ := FileTree.writeFile_of_directory hnames
      (by rwa [List.dropLast_concat]) (by simp [hnone]) .empty
    exact ends_bind (ends_update_of_ok ht (ends_pure ⟨hnone, rfl, hget⟩))
  · rw [hlocate] at hfault
    cases hfault

theorem fill_of_file (hd : d.Granting) (hfile : d.tree.get? temporary = some (.file bytes))
    (p : Path) (text : String) :
    Ends (fill p temporary text) d
      (fun _ d' => d.Shows d' fun m =>
        if m = temporary then some (.file text.toUTF8) else d.tree.get? m)
      fun _ _ => False := by
  unfold fill
  obtain ⟨t, ht, hget⟩ := FileTree.writeFile_of_directory (FileTree.isFileName_of_get? hfile)
    (FileTree.get?_dropLast hfile) (by simp [hfile]) text.toUTF8
  exact ends_bind (ends_demand_of_allowed (hd.fill _ _) (ends_update_of_ok ht ⟨rfl, hget⟩))

theorem rename_of_directory (hd : d.Granting) (hl : ∀ n ∈ l, isFileName n = true) (hne : l ≠ [])
    (hfile : d.tree.get? temporary = some (.file bytes))
    (hparent : d.tree.get? l.dropLast = some .directory)
    (hfree : l = temporary ∨ d.tree.get? l = none) :
    Ends (rename (.ofLocation l) temporary) d
      (fun _ d' => d.Shows d' fun m =>
        if m = l then some (.file bytes) else if m = temporary then none else d.tree.get? m)
      fun _ _ => False := by
  unfold rename
  obtain ⟨t, ht, hget⟩ := FileTree.moveFile_of_directory hl hfile hparent hfree
  refine ends_bind (ends_demand_of_allowed (hd.replace _ _) (ends_update_of_ok (t := t) ?_
    ⟨rfl, hget⟩))
  rw [FileTree.locate_ofLocation hl hparent, Path.namesDirectory_ofLocation hl hne]
  exact ht

/-- In a directory a file can be put where nothing stands: the temporary file is gone afterwards. -/
theorem fillAndRename_of_directory (hd : d.Granting) (hl : ∀ n ∈ l, isFileName n = true)
    (hparent : d.tree.get? l.dropLast = some .directory) (hfree : d.tree.get? l = none)
    (text : String) :
    Ends
      (do
        let temporary ← createTemporary (.ofLocation l) (.ofLocation l.dropLast)
        try
          fill (.ofLocation l) temporary text
          rename (.ofLocation l) temporary
        catch fault => do
          modify fun d => { d with tree := d.tree.remove temporary }
          throw fault : DiskAction Unit)
      d
      (fun _ d' => d.Shows d' fun m =>
        if m = l then some (.file text.toUTF8) else d.tree.get? m)
      fun _ _ => False := by
  have hne : l ≠ [] := by
    rintro rfl
    cases hfree
  have hdir : ∀ n ∈ l.dropLast, isFileName n = true := fun n hn => hl n (List.mem_of_mem_dropLast hn)
  refine ends_bind ((createTemporary_of_directory hd hdir hparent _).mono
    (fun temporary d₁ h₁ => ?_) fun _ _ h => h)
  obtain ⟨hnone, h₁⟩ := h₁
  have hd₁ := h₁.granting hd
  have hempty : d₁.tree.get? temporary = some (.file .empty) := by
    rw [h₁.get?, if_pos rfl]
  refine ends_tryCatch (ends_bind ((fill_of_file hd₁ hempty _ text).mono (fun _ d₂ h₂ => ?_)
    fun _ _ h => h.elim))
  have hget : ∀ m, d₂.tree.get? m =
      if m = temporary then some (.file text.toUTF8) else d.tree.get? m := by
    intro m
    rw [h₂.get?, h₁.get?]
    split_ifs <;> rfl
  have hfile : d₂.tree.get? temporary = some (.file text.toUTF8) := by
    rw [hget, if_pos rfl]
  have hparent₂ : d₂.tree.get? l.dropLast = some .directory := by
    rw [hget, if_neg, hparent]
    intro heq
    rw [← heq, hparent] at hnone
    cases hnone
  -- The free name that was found may be the very name of the file.
  have hfree₂ : l = temporary ∨ d₂.tree.get? l = none := by
    by_cases heq : l = temporary
    · exact .inl heq
    · exact .inr (by rw [hget, if_neg heq, hfree])
  refine (rename_of_directory (h₂.granting hd₁) hl hne hfile hparent₂ hfree₂).mono
    (fun _ d₃ h₃ => ⟨?_, fun m => ?_⟩) fun _ _ h => h.elim
  · rw [h₃.refuses, h₂.refuses, h₁.refuses]
  · rw [h₃.get?, hget]
    split_ifs with hml hmt
    · rfl
    · rw [hmt, hnone]
    · rfl

/-- Where nothing stands, and nothing but directories above, a file can be put. The directories that
lead to it are there afterwards, and all else is as it was. -/
theorem replace_of_vacant (hd : d.Granting) (hl : ∀ n ∈ l, isFileName n = true)
    (h : d.tree.Vacant l) (text : String) :
    Ends (replace (.ofLocation l) text) d
      (fun _ d' => d.Shows d' fun m => if m = l then some (.file text.toUTF8)
        else if m <+: l then some .directory else d.tree.get? m)
      fun _ _ => False := by
  have hdir : ∀ n ∈ l.dropLast, isFileName n = true := fun n hn => hl n (List.mem_of_mem_dropLast hn)
  unfold replace
  rw [Path.parent?_ofLocation hl h.ne_nil, Option.getD_some]
  dsimp only
  rw [Path.components_ofLocation hdir]
  refine ends_bind ((makeDirectories_of_passable hd hdir
    (h.passable.of_isPrefix (List.dropLast_prefix l))).mono (fun _ d₁ h₁ => ?_) fun _ _ h => h)
  have hfree : d₁.tree.get? l = none := by
    rw [h₁.get?_below (not_prefix_dropLast h.ne_nil), h.free]
  refine (fillAndRename_of_directory (h₁.granting hd) hl h₁.get?_self hfree text).mono
    (fun _ d₂ h₂ => ⟨h₂.refuses.trans h₁.refuses, fun m => ?_⟩) fun _ _ h => h
  rw [h₂.get?, h₁.get?]
  by_cases hm : m = l
  · rw [if_pos hm, if_pos hm]
  · simp only [hm, prefix_iff_dropLast h.ne_nil, false_or]

end Disk

end CallBridge
