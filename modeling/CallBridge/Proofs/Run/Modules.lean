import CallBridge.Proofs.Extraction.Candidates
import CallBridge.Proofs.Files.Tree
import CallBridge.Proofs.Generated.Wiring
import CallBridge.Proofs.Path.Specifier
import CallBridge.Proofs.Surface.Groups
import CallBridge.Run

/-! # The modules of a surface

Every method of a surface that is read from a disk comes from one of the files that were read, and
the backend module imports its owner from the specifier of that file. So the backend tells two files
apart exactly as far as their specifiers do.
-/
namespace CallBridge

theorem SourceFile.file_of_mem_extract {f : SourceFile} {marking : Marking} {m : Method}
    (hm : m ∈ (f.extract marking).methods) : m.file = f.path := by
  obtain ⟨-, -, -, -, c, namespaceName, shape, -, -, -, -, rfl, -⟩ := exists_candidate hm
  rfl

theorem Disk.file_of_mem_analyzeFile {d : Disk} {marking : Marking} {p : Path} {m : Method}
    (hm : m ∈ (d.analyzeFile marking p).methods) : m.file = p ∧ ∃ bytes, d.read [] p = .ok bytes := by
  unfold analyzeFile at hm
  split at hm
  · cases hm
  · next bytes hread =>
    refine ⟨?_, bytes, hread⟩
    cases hfile : SourceFile.read? p bytes with
    | none => simp [hfile, Yield.unusable] at hm
    | some f =>
      simp only [hfile] at hm
      split at hm
      · cases hm
      · obtain ⟨dialect, -, rfl⟩ := Option.map_eq_some_iff.mp hfile
        exact SourceFile.file_of_mem_extract hm

namespace Surface
variable {s s' : Surface} {m : Method}

theorem mem_of_insert {x : Method} (h : s.insert x = .ok s') (hm : m ∈ s'.methods) :
    m = x ∨ m ∈ s.methods := by
  refine mem_insert_getD (s := s) ?_
  rw [h]
  exact hm

theorem mem_of_insertAll {ms : List Method} (h : s.insertAll ms = .ok s') (hm : m ∈ s'.methods) :
    m ∈ s.methods ∨ m ∈ ms := by
  refine of_foldlM_eq_ok (P := fun done t => ∀ m ∈ t.methods, m ∈ s.methods ∨ m ∈ done)
    (fun m hm => .inl hm) (fun done x t next ht hnext m hm => ?_) h m hm
  rcases mem_of_insert hnext hm with rfl | hm
  · exact .inr (by simp)
  · exact (ht m hm).imp_right (List.mem_append_left _)

theorem mem_of_merge {ys : List Yield} (h : (s.merge ys).result = .ok s') (hm : m ∈ s'.methods) :
    m ∈ s.methods ∨ ∃ y ∈ ys, m ∈ y.methods := by
  induction ys generalizing s with
  | nil =>
    obtain ⟨-, -, h⟩ := bind_eq_ok_iff.mp h
    rw [pure_eq_ok_iff.mp h]
    exact .inl hm
  | cons y ys ih =>
    unfold merge at h
    split at h
    · cases h
    · next t ht =>
      rcases ih h with hm | ⟨y', hy', hm⟩
      · exact (mem_of_insertAll ht hm).imp_right fun hm => ⟨y, List.mem_cons_self, hm⟩
      · exact .inr ⟨y', List.mem_cons_of_mem _ hy', hm⟩

end Surface

/-- A method of a surface comes from one of the files, which can be read. -/
theorem Disk.file_of_mem_analyze {d : Disk} {settings : Settings} {files : List Path} {s : Surface}
    {m : Method} (hs : (d.analyze settings files).result = .ok s) (hm : m ∈ s.methods) :
    m.file ∈ files ∧ ∃ bytes, d.read [] m.file = .ok bytes := by
  rcases Surface.mem_of_merge hs hm with hm | ⟨y, hy, hm⟩
  · cases hm
  · obtain ⟨p, hp, rfl⟩ := List.mem_map.mp hy
    obtain ⟨rfl, hread⟩ := file_of_mem_analyzeFile hm
    exact ⟨mem_of_mem_sortedDistinct hp, hread⟩

theorem Disk.apart_of_read {d : Disk} {p q : Path} (hp : p.Located) (hq : q.Located)
    {bytes bytes' : ByteArray} (hpread : d.read [] p = .ok bytes)
    (hqread : d.read [] q = .ok bytes') (h : p.location <+: q.location) :
    p.location = q.location := by
  have hfile : ∀ {r : Path} {bytes : ByteArray}, r.Located → d.read [] r = .ok bytes →
      d.tree.get? r.location = some (.file bytes) := by
    intro r bytes hr hread
    obtain ⟨-, -, hread⟩ := bind_eq_ok_iff.mp hread
    rw [hr.eq] at hread
    exact (FileTree.read_ofLocation_eq_ok_iff hr.named).mp hread
  obtain ⟨rest, hrest⟩ := h
  by_contra hne
  have hnil : rest ≠ [] := fun hnil => hne (by rw [← hrest, hnil, List.append_nil])
  have hqfile := hfile hq hqread
  rw [← hrest] at hqfile
  have hdirectory := FileTree.get?_of_append hnil hqfile
  rw [hfile hp hpread] at hdirectory
  cases hdirectory

namespace Generated

/-- The owner of a method is imported from a module. -/
def Backend.ImportsFrom (b : Backend) (n : Names) (m : Method) (specifier : String) : Prop :=
  ∃ l source, n.import? m.owner = some l ∧ b.imports.source? l = some source ∧
    source.specifier = specifier

/-- A backend module can be written for every surface, and each owner is imported from its file. -/
theorem Backend.exists_importsFrom (s : Surface) (output : Path) (runtime : String) :
    ∃ n b, Backend.bindings s output runtime = .ok (n, b.imports) ∧
      Backend.ofSurface s output runtime = .ok b ∧
      ∀ m ∈ s.methods, b.ImportsFrom n m ((ModuleRef.file m.file).specifier output) := by
  obtain ⟨before, n, imports, hbindings, hfirsts, hinstances⟩ := exists_bindings s output runtime
  obtain ⟨firsts, -, howners, hfirst⟩ := hfirsts
  refine ⟨n, _, hbindings, by simp only [Backend.ofSurface, hbindings]; rfl, fun m hm => ?_⟩
  obtain ⟨a, ha, ham⟩ := hfirst m hm
  obtain ⟨l, hl, hsource⟩ := howners.imported a ha
  have hfile : a.file.components = m.file.components :=
    (Prod.mk.inj (Owner.same_iff.mp ham)).2
  refine ⟨l, ownerSource output a, ?_, hsource, ?_⟩
  · rw [Names.import?, hinstances.imports, ← Names.lookup_congr ham]
    exact hl
  · rw [ownerSource, specifier_congr hfile output]

/-- A backend module can be written for whatever is read from source files, and it imports the owners
of two files from one module only if the files differ in the extension alone. Such files do share
their module, unless they stand on the way to the output. -/
theorem source_files_told_apart {d : Disk} {settings : Settings} {files : List Path} {s : Surface}
    (hfiles : ∀ p ∈ files, p.Located ∧ p.isSource = true)
    (hs : (d.analyze settings files).result = .ok s) (output : Path) (runtime : String) :
    ∃ n b, Backend.bindings s output runtime = .ok (n, b.imports) ∧
      Backend.ofSurface s output runtime = .ok b ∧
      ∀ m ∈ s.methods, ∀ m' ∈ s.methods, ∃ u u', b.ImportsFrom n m u ∧ b.ImportsFrom n m' u' ∧
        (u = u' → m.file.unextended = m'.file.unextended) ∧
        (m.file.unextended = m'.file.unextended →
          ¬ m.file.components <+: (importDirectory output).components →
          ¬ m'.file.components <+: (importDirectory output).components → u = u') := by
  obtain ⟨n, b, hbindings, hb, himports⟩ := Backend.exists_importsFrom s output runtime
  refine ⟨n, b, hbindings, hb, fun m hm m' hm' =>
    ⟨_, _, himports m hm, himports m' hm', fun hu => ?_, fun he hout hout' => ?_⟩⟩
  · obtain ⟨hmem, bytes, hread⟩ := Disk.file_of_mem_analyze hs hm
    obtain ⟨hmem', bytes', hread'⟩ := Disk.file_of_mem_analyze hs hm'
    obtain ⟨hp, hps⟩ := hfiles _ hmem
    obtain ⟨hq, hqs⟩ := hfiles _ hmem'
    exact Path.unextended_eq_of_specifier_eq hp hq hps hqs (Disk.apart_of_read hp hq hread hread')
      (Disk.apart_of_read hq hp hread' hread) hu
  · obtain ⟨hp, hps⟩ := hfiles _ (Disk.file_of_mem_analyze hs hm).1
    obtain ⟨hq, hqs⟩ := hfiles _ (Disk.file_of_mem_analyze hs hm').1
    exact Path.specifier_eq_of_unextended_eq hp hq hps hqs he hout hout'

/-- A project with three sources, two of which differ in the extension only. -/
def twinTree : FileTree where
  entries := [(["work"], .directory),
    (["work", "item.ts"], .file
      "/** @expose itemAPI */\nexport function load(): void \x7b\x7d\n".toUTF8),
    (["work", "user.ts"], .file
      "/** @expose plainAPI */\nexport function load(): void \x7b\x7d\n".toUTF8),
    (["work", "user.tsx"], .file
      "/** @expose viewAPI */\nexport function load(): void \x7b\x7d\n".toUTF8)]
  distinct := by decide +kernel
  named := by decide +kernel
  rooted := by decide +kernel

def twinFiles : List Path :=
  [⟨"/work/item.ts"⟩, ⟨"/work/user.ts"⟩, ⟨"/work/user.tsx"⟩]

theorem twinFiles_located : ∀ p ∈ twinFiles, p.Located ∧ p.isSource = true := by
  have hnamed : ∀ p ∈ twinFiles, (∀ n ∈ p.location, isFileName n = true) ∧
      p = .ofLocation p.location ∧ p.isSource = true := by decide +kernel
  exact fun p hp => ⟨⟨(hnamed p hp).1, (hnamed p hp).2.1⟩, (hnamed p hp).2.2⟩

theorem sortDistinct_twinFiles : Path.sortDistinct twinFiles = twinFiles := by
  have hsorted : twinFiles.Pairwise fun p q => p.le q = true := by decide +kernel
  rw [Path.sortDistinct, sortedDistinct, List.mergeSort_of_pairwise hsorted]
  decide +kernel

theorem analyze_twinTree : ∃ s : Surface,
    (({ tree := twinTree } : Disk).analyze (.ofRoot ⟨"/work"⟩) twinFiles).result = .ok s ∧
      s.methods.map Method.file = twinFiles := by
  have hok : (({ tree := twinTree } : Disk).analyze (.ofRoot ⟨"/work"⟩)
      twinFiles).result.toOption.map (fun s => s.methods.map Method.file) = some twinFiles := by
    rw [Disk.analyze, sortDistinct_twinFiles]
    decide +kernel
  obtain ⟨s, hs, hmethods⟩ := Option.map_eq_some_iff.mp hok
  exact ⟨s, eq_ok_of_toOption hs, hmethods⟩

theorem twin_source_files_told_apart : ∃ s n b,
    (({ tree := twinTree } : Disk).analyze (.ofRoot ⟨"/work"⟩) twinFiles).result = .ok s ∧
      s.methods.map Method.file = twinFiles ∧
      Backend.bindings s ⟨"/work/main/bridge.ts"⟩ "run/backend" = .ok (n, b.imports) ∧
      Backend.ofSurface s ⟨"/work/main/bridge.ts"⟩ "run/backend" = .ok b ∧
      ∀ m ∈ s.methods, ∀ m' ∈ s.methods, ∃ u u', b.ImportsFrom n m u ∧ b.ImportsFrom n m' u' ∧
        (u = u' ↔ m.file.unextended = m'.file.unextended) := by
  obtain ⟨s, hs, hmethods⟩ := analyze_twinTree
  obtain ⟨n, b, hbindings, hb, happart⟩ :=
    source_files_told_apart twinFiles_located hs ⟨"/work/main/bridge.ts"⟩ "run/backend"
  refine ⟨s, n, b, hs, hmethods, hbindings, hb, fun m hm m' hm' => ?_⟩
  have hout : ∀ p ∈ twinFiles,
      ¬ p.components <+: (importDirectory ⟨"/work/main/bridge.ts"⟩).components := by decide +kernel
  have hfile : ∀ m ∈ s.methods, m.file ∈ twinFiles := fun m hm =>
    hmethods ▸ List.mem_map_of_mem hm
  obtain ⟨u, u', hu, hu', hapart, hshare⟩ := happart m hm m' hm'
  exact ⟨u, u', hu, hu', hapart, fun he => hshare he (hout _ (hfile m hm)) (hout _ (hfile m' hm'))⟩

/-- The functions of both twins are imported from one module. -/
theorem twins_share_module : (∀ p ∈ twinFiles, p.isSource = true) ∧ ∃ s n b,
    (({ tree := twinTree } : Disk).analyze (.ofRoot ⟨"/work"⟩) twinFiles).result = .ok s ∧
      Backend.bindings s ⟨"/work/main/bridge.ts"⟩ "run/backend" = .ok (n, b.imports) ∧
      Backend.ofSurface s ⟨"/work/main/bridge.ts"⟩ "run/backend" = .ok b ∧
      ∃ m ∈ s.methods, ∃ m' ∈ s.methods, m.file = ⟨"/work/user.ts"⟩ ∧ m'.file = ⟨"/work/user.tsx"⟩ ∧
        b.ImportsFrom n m "../user" ∧ b.ImportsFrom n m' "../user" := by
  obtain ⟨s, hs, hmethods⟩ := analyze_twinTree
  obtain ⟨n, b, hbindings, hb, himports⟩ :=
    Backend.exists_importsFrom s ⟨"/work/main/bridge.ts"⟩ "run/backend"
  have hplain : (⟨"/work/user.ts"⟩ : Path) ∈ s.methods.map Method.file := by simp [hmethods, twinFiles]
  have hview : (⟨"/work/user.tsx"⟩ : Path) ∈ s.methods.map Method.file := by simp [hmethods, twinFiles]
  obtain ⟨m, hm, hmfile⟩ := List.mem_map.mp hplain
  obtain ⟨m', hm', hmfile'⟩ := List.mem_map.mp hview
  have himport := himports m hm
  have himport' := himports m' hm'
  rw [hmfile, show (ModuleRef.file ⟨"/work/user.ts"⟩).specifier ⟨"/work/main/bridge.ts"⟩ = "../user"
    by decide +kernel] at himport
  rw [hmfile', show (ModuleRef.file ⟨"/work/user.tsx"⟩).specifier ⟨"/work/main/bridge.ts"⟩ = "../user"
    by decide +kernel] at himport'
  exact ⟨fun p hp => (twinFiles_located p hp).2, s, n, b, hs, hbindings, hb, m, hm, m', hm', hmfile,
    hmfile', himport, himport'⟩

end Generated

end CallBridge
