import CallBridge.Proofs.Order
import CallBridge.Proofs.Run.Modules
import CallBridge.Proofs.Syntax.Faults

/-! # What an analysis depends on

An analysis takes every file once, in path order, so it depends on the set of its files alone. It
fails only when a method is declared twice or a namespace has two classes, and it reports what the
files yield one by one, up to the file that declares a method again. So a file that cannot be used
adds its own report to the analysis and changes nothing else.
-/
namespace CallBridge

namespace Path
variable {files ps : List Path}

theorem mem_sortDistinct_iff (hfiles : ∀ p ∈ files, p.Located) {p : Path} :
    p ∈ sortDistinct files ↔ p ∈ files :=
  mem_sortedDistinct_iff (fun _ _ => same_iff_compare)
    fun a ha b hb hab => (hfiles a ha).eq_of_same (hfiles b hb) hab

theorem sortDistinct_eq (hfiles : ∀ p ∈ files, p.Located)
    (hps : ps.Pairwise fun p q => p.compare q = .lt) (h : ∀ p, p ∈ files ↔ p ∈ ps) :
    sortDistinct files = ps :=
  eq_of_mem_iff_of_increasing (sortDistinct_increasing files) hps
    fun p => (mem_sortDistinct_iff hfiles).trans (h p)

/-- Without one of the files, the others are in the order in which they were. -/
theorem sortDistinct_filter_ne (hfiles : ∀ q ∈ files, q.Located) {before after : List Path}
    {p : Path} (h : sortDistinct files = before ++ p :: after) :
    sortDistinct (files.filter (· ≠ p)) = before ++ after := by
  have hincreasing : (before ++ p :: after).Pairwise fun q r => q.compare r = .lt :=
    h ▸ sortDistinct_increasing files
  have hnot : p ∉ before ++ after :=
    (List.nodup_cons.mp (List.nodup_middle.mp (nodup_of_increasing hincreasing))).1
  refine sortDistinct_eq (fun q hq => hfiles q (List.mem_filter.mp hq).1) ?_ fun q => ?_
  · exact hincreasing.sublist (List.Sublist.append_left (List.sublist_cons_self p after) before)
  · rw [List.mem_filter, ← mem_sortDistinct_iff hfiles, h, decide_eq_true_eq,
      List.perm_middle.mem_iff, List.mem_cons]
    constructor
    · rintro ⟨rfl | hq, hne⟩
      · exact absurd rfl hne
      · exact hq
    · intro hq
      refine ⟨.inr hq, ?_⟩
      rintro rfl
      exact hnot hq

/-- In path order, what is not behind a path is what stands in front of it, and the path. -/
theorem filter_le_of_increasing {before after : List Path} {p : Path}
    (h : (before ++ p :: after).Pairwise fun q r => q.compare r = .lt) :
    (before ++ p :: after).filter (·.le p) = before ++ [p] := by
  obtain ⟨-, hafter, hbefore⟩ := List.pairwise_append.mp h
  have hfront : before.filter (·.le p) = before := by
    refine List.filter_eq_self.mpr fun q hq => ?_
    rw [le, hbefore q hq p List.mem_cons_self]
    rfl
  have hself : p.le p = true := by
    have hequal : p.compare p = .eq := Std.ReflCmp.compare_self
    rw [le, hequal]
    rfl
  have hback : after.filter (·.le p) = [] := by
    refine List.filter_eq_nil_iff.mpr fun q hq => ?_
    have hswap : q.compare p = (p.compare q).swap := Std.OrientedCmp.eq_swap
    rw [le, hswap, (List.pairwise_cons.mp hafter).1 q hq]
    exact Bool.false_ne_true
  rw [List.filter_append, List.filter_cons, if_pos hself, hfront, hback]

end Path

namespace Surface
variable {s : Surface}

theorem validate_ne_duplicateMethod (s : Surface) (first second : Method) :
    s.validate ≠ .error (.duplicateMethod first second) := by
  unfold validate
  split <;> exact nofun

theorem merge_result (s : Surface) (ys : List Yield) :
    (s.merge ys).result = do
      let t ← s.insertAll (ys.flatMap Yield.methods)
      t.validate
      return t := by
  induction ys generalizing s with
  | nil => rfl
  | cons y ys ih =>
    rw [List.flatMap_cons, insertAll_append]
    unfold merge
    cases hy : s.insertAll y.methods with
    | error failure => rfl
    | ok t => exact ih t

theorem merge_diagnostics {t : Surface} {ys : List Yield}
    (h : s.insertAll (ys.flatMap Yield.methods) = .ok t) :
    (s.merge ys).diagnostics = ys.flatMap Yield.diagnostics := by
  induction ys generalizing s with
  | nil => rfl
  | cons y ys ih =>
    rw [List.flatMap_cons, insertAll_append, bind_eq_ok_iff] at h
    obtain ⟨u, hy, hys⟩ := h
    rw [List.flatMap_cons, merge, hy]
    exact congrArg (y.diagnostics ++ ·) (ih hys)

/-- A merge that ends with a method that is declared twice has reported what was yielded up to its
second declaration. -/
theorem merge_diagnostics_of_error {failure : Failure} {ys : List Yield}
    (h : s.insertAll (ys.flatMap Yield.methods) = .error failure) :
    ∃ before y after first, ∃ second ∈ y.methods, ys = before ++ y :: after ∧
      failure = .duplicateMethod first second ∧
      (s.merge ys).diagnostics = (before ++ [y]).flatMap Yield.diagnostics := by
  induction ys generalizing s with
  | nil => cases h
  | cons y ys ih =>
    rw [List.flatMap_cons, insertAll_append] at h
    unfold merge
    cases hy : s.insertAll y.methods with
    | error failure' =>
      rw [hy] at h
      cases h
      obtain ⟨first, second, hsecond, rfl⟩ := insertAll_eq_error hy
      exact ⟨[], y, ys, first, second, hsecond, rfl, rfl, by simp⟩
    | ok t =>
      rw [hy] at h
      obtain ⟨before, y', after, first, second, hsecond, hys, hfailure, hreported⟩ := ih h
      refine ⟨y :: before, y', after, first, second, hsecond, by rw [hys]; rfl, hfailure, ?_⟩
      exact congrArg (y.diagnostics ++ ·) hreported

end Surface

namespace Disk

def reports (d : Disk) (s : Settings) (ps : List Path) : List Diagnostic :=
  ps.flatMap fun p => (d.analyzeFile s.marking p).diagnostics

variable {d : Disk} {s : Settings} {files : List Path}

theorem reports_append (d : Disk) (s : Settings) (ps qs : List Path) :
    d.reports s (ps ++ qs) = d.reports s ps ++ d.reports s qs :=
  List.flatMap_append

theorem flatMap_yields (d : Disk) (s : Settings) (ps : List Path) :
    (ps.map (d.analyzeFile s.marking)).flatMap Yield.diagnostics = d.reports s ps :=
  List.flatMap_map ..

theorem analyze_reports (h : ∀ first second,
      (d.analyze s files).result ≠ .error (.duplicateMethod first second)) :
    (d.analyze s files).diagnostics = d.reports s (Path.sortDistinct files) := by
  unfold analyze at h ⊢
  simp only [Surface.merge_result] at h
  rw [← flatMap_yields]
  cases hall : Surface.empty.insertAll
      (((Path.sortDistinct files).map (d.analyzeFile s.marking)).flatMap Yield.methods) with
  | ok t => exact Surface.merge_diagnostics hall
  | error failure =>
    obtain ⟨first, second, -, rfl⟩ := Surface.insertAll_eq_error hall
    rw [hall] at h
    exact absurd rfl (h first second)

/-- An analysis that finds a method declared twice reports on the files up to that with the second
declaration. -/
theorem analyze_reports_of_duplicate {first second : Method}
    (h : (d.analyze s files).result = .error (.duplicateMethod first second)) :
    second.file ∈ Path.sortDistinct files ∧ (d.analyze s files).diagnostics =
      d.reports s ((Path.sortDistinct files).filter (·.le second.file)) := by
  have hincreasing := Path.sortDistinct_increasing files
  unfold analyze at h ⊢
  rw [Surface.merge_result] at h
  generalize Path.sortDistinct files = ps at h hincreasing ⊢
  cases hall : Surface.empty.insertAll ((ps.map (d.analyzeFile s.marking)).flatMap Yield.methods) with
  | ok t =>
    rw [hall] at h
    change (do t.validate; return t) = Except.error (.duplicateMethod first second) at h
    cases hvalidate : t.validate with
    | ok u =>
      rw [hvalidate] at h
      cases h
    | error failure =>
      rw [hvalidate] at h
      cases h
      exact absurd hvalidate (t.validate_ne_duplicateMethod first second)
  | error failure =>
    rw [hall] at h
    cases h
    obtain ⟨before, y, after, _, _, hsecond, hys, heq, hreported⟩ :=
      Surface.merge_diagnostics_of_error hall
    cases heq
    obtain ⟨front, rest, rfl, rfl, hrest⟩ := List.map_eq_append_iff.mp hys
    obtain ⟨p, back, rfl, rfl, rfl⟩ := List.map_eq_cons_iff.mp hrest
    obtain ⟨hfile, -⟩ := file_of_mem_analyzeFile hsecond
    rw [hfile]
    refine ⟨by simp, ?_⟩
    rw [hreported, Path.filter_le_of_increasing hincreasing, ← flatMap_yields, List.map_append]
    rfl

/-- An analysis depends on the set of its files only, and so do the texts that are rendered. -/
theorem analysis_of_same_files (d : Disk) (s : Settings) {files files' : List Path}
    (hfiles : ∀ p ∈ files, p.isAbsolute = true ∧ p.normalize = p)
    (h : ∀ p, p ∈ files ↔ p ∈ files') :
    d.analyze s files = d.analyze s files' ∧ d.render s files = d.render s files' := by
  have hlocated : ∀ p ∈ files, p.Located := fun p hp => Path.located_iff.mpr (hfiles p hp)
  have hlocated' : ∀ p ∈ files', p.Located := fun p hp => hlocated p ((h p).mpr hp)
  have hsorted : Path.sortDistinct files = Path.sortDistinct files' := by
    refine Path.sortDistinct_eq hlocated (Path.sortDistinct_increasing files') fun p => ?_
    rw [h p, Path.mem_sortDistinct_iff hlocated']
  have hanalyze : d.analyze s files = d.analyze s files' := by rw [analyze, hsorted, analyze]
  exact ⟨hanalyze, by rw [render, hanalyze, render]⟩

/-- A project in which a method is declared twice, with a file between the declarations that cannot
be parsed. -/
def doubledTree : FileTree where
  entries := [(["work"], .directory),
    (["work", "a.ts"], .file "/** @expose */\nfunction load(): void \x7b\x7d\n".toUTF8),
    (["work", "b.ts"], .file "/** @expose */\nexport function (\n".toUTF8),
    (["work", "c.ts"], .file "/** @expose */\nexport function load(): void \x7b\x7d\n".toUTF8)]
  distinct := by decide +kernel
  named := by decide +kernel
  rooted := by decide +kernel

def doubledFiles : List Path :=
  [⟨"/work/c.ts"⟩, ⟨"/work/b.ts"⟩, ⟨"/work/a.ts"⟩, ⟨"/work/b.ts"⟩]

def doubledFilesInOrder : List Path :=
  [⟨"/work/a.ts"⟩, ⟨"/work/b.ts"⟩, ⟨"/work/c.ts"⟩]

theorem doubledFiles_normal : ∀ p ∈ doubledFiles, p.isAbsolute = true ∧ p.normalize = p := by
  decide +kernel

theorem mem_doubledFiles_iff (p : Path) : p ∈ doubledFiles ↔ p ∈ doubledFilesInOrder := by
  simp only [doubledFiles, doubledFilesInOrder, List.mem_cons, List.not_mem_nil, or_false]
  tauto

theorem sortDistinct_doubledFiles : Path.sortDistinct doubledFiles = doubledFilesInOrder := by
  refine Path.sortDistinct_eq (fun p hp => Path.located_iff.mpr (doubledFiles_normal p hp)) ?_
    mem_doubledFiles_iff
  decide +kernel

theorem analyze_doubledTree : ∃ failure,
    (({ tree := doubledTree } : Disk).analyze (.ofRoot ⟨"/work"⟩) doubledFiles).result =
      .error failure ∧ failure.message =
        "duplicate exposed method 'api:load' declared at /work/a.ts:2 and /work/c.ts:2" := by
  have hmessage : (((({ tree := doubledTree } : Disk).analyze (.ofRoot ⟨"/work"⟩)
      doubledFiles).result.map fun _ => "").tryCatch fun failure => .ok failure.message).toOption =
        some "duplicate exposed method 'api:load' declared at /work/a.ts:2 and /work/c.ts:2" := by
    rw [analyze, sortDistinct_doubledFiles]
    decide +kernel
  cases hresult : (({ tree := doubledTree } : Disk).analyze (.ofRoot ⟨"/work"⟩) doubledFiles).result with
  | ok s =>
    rw [hresult] at hmessage
    exact absurd (Option.some.inj hmessage) (by simp)
  | error failure =>
    rw [hresult] at hmessage
    exact ⟨failure, rfl, Option.some.inj hmessage⟩

theorem doubled_files_in_any_order :
    (∀ p, p ∈ doubledFiles ↔ p ∈ doubledFilesInOrder) ∧ ∃ failure,
      (({ tree := doubledTree } : Disk).analyze (.ofRoot ⟨"/work"⟩) doubledFiles).result =
        .error failure ∧ failure.message =
          "duplicate exposed method 'api:load' declared at /work/a.ts:2 and /work/c.ts:2" ∧
      ({ tree := doubledTree } : Disk).analyze (.ofRoot ⟨"/work"⟩) doubledFiles =
        ({ tree := doubledTree } : Disk).analyze (.ofRoot ⟨"/work"⟩) doubledFilesInOrder := by
  obtain ⟨failure, hresult, hmessage⟩ := analyze_doubledTree
  obtain ⟨hanalyze, -⟩ := analysis_of_same_files { tree := doubledTree } (.ofRoot ⟨"/work"⟩)
    doubledFiles_normal mem_doubledFiles_iff
  exact ⟨mem_doubledFiles_iff, failure, hresult, hmessage, hanalyze⟩

/-- Nothing can be extracted from a file: it cannot be read, its extension does not stand for a
dialect, or there is a fault in its tree. -/
inductive Unusable (d : Disk) (p : Path) : Prop
  | unreadable {fault : FileFault} (h : d.read [] p = .error fault)
  | unsupported (h : Syntax.Dialect.ofPath? p = none)
  | faulty {bytes : ByteArray} {f : SourceFile} {t : Syntax.Tree} (hread : d.read [] p = .ok bytes)
    (hf : SourceFile.read? p bytes = some f) (ht : t ∈ f.tree.preorder) (hfault : t.isFault = true)

/-- A report says of a file that it cannot be used, and whether it can be read. -/
structure Condemns (d : Disk) (p : Path) (report : Diagnostic) : Prop where
  file : report.file = p.text
  severity : report.severity = .error
  problem : (report.problem = .unreadableFile ∧ ∃ fault, d.read [] p = .error fault) ∨
    (report.problem = .parseError ∧ ∃ bytes, d.read [] p = .ok bytes)

theorem Unusable.exists_report {p : Path} (hp : d.Unusable p) (marking : Marking) :
    ∃ report, d.analyzeFile marking p = ⟨[], [report]⟩ ∧ d.Condemns p report := by
  cases hread : d.read [] p with
  | error fault =>
    refine ⟨.of .unreadableFile p.text 0 ("cannot read file: " ++ fault.message), ?_,
      ⟨rfl, rfl, .inl ⟨rfl, fault, hread⟩⟩⟩
    rw [analyzeFile, hread]
    rfl
  | ok bytes =>
    have hfault : ∀ f, SourceFile.read? p bytes = some f → ∃ line, f.faultLine? = some line := by
      intro f hf
      cases hp with
      | unreadable h =>
        rw [hread] at h
        cases h
      | unsupported h =>
        rw [SourceFile.read?, h] at hf
        cases hf
      | faulty hread' hf' ht hfault =>
        rw [hread] at hread'
        cases hread'
        rw [hf] at hf'
        cases hf'
        exact Syntax.Tree.exists_faultLine? ht hfault
    cases hf : SourceFile.read? p bytes with
    | none =>
      refine ⟨.of .parseError p.text 0 (SourceFile.unsupported p), ?_,
        ⟨rfl, rfl, .inr ⟨rfl, bytes, hread⟩⟩⟩
      simp only [analyzeFile, hread, hf]
      rfl
    | some f =>
      obtain ⟨line, hline⟩ := hfault f hf
      refine ⟨.of .parseError p.text line "syntax error; file skipped", ?_,
        ⟨rfl, rfl, .inr ⟨rfl, bytes, hread⟩⟩⟩
      simp only [analyzeFile, hread, hf, hline]
      rfl

/-- How an analysis treats a file that adds only a report: `before` and `after` are the other files
in path order, as far as they stand in front of it and behind it. All files are reported on, unless
a method is declared twice. Then the last file that is reported on is that of the second
declaration. -/
structure SetsAside (d : Disk) (s : Settings) (files : List Path) (p : Path)
    (before after : List Path) (report : Diagnostic) : Prop where
  increasing : (before ++ p :: after).Pairwise fun q r => q.compare r = .lt
  mem_iff : ∀ q, q ∈ before ++ p :: after ↔ q ∈ files
  condemned : d.Condemns p report
  own : d.reports s [p] = [report]
  result : (d.analyze s files).result = (d.analyze s (files.filter (· ≠ p))).result
  complete : (∀ first second,
      (d.analyze s files).result ≠ .error (.duplicateMethod first second)) →
    (d.analyze s files).diagnostics = d.reports s before ++ report :: d.reports s after ∧
      (d.analyze s (files.filter (· ≠ p))).diagnostics = d.reports s before ++ d.reports s after
  cut : ∀ first second, (d.analyze s files).result = .error (.duplicateMethod first second) →
    second.file ∈ before ++ after ∧
      (d.analyze s files).diagnostics =
        d.reports s ((before ++ p :: after).filter (·.le second.file)) ∧
      (d.analyze s (files.filter (· ≠ p))).diagnostics =
        d.reports s ((before ++ after).filter (·.le second.file))

/-- A file that cannot be used is isolated: the analysis comes to what it comes to without the file,
and reports on the file in its place in path order. -/
theorem Unusable.isolated {p : Path} (hp : d.Unusable p) (s : Settings)
    (hfiles : ∀ q ∈ files, q.isAbsolute = true ∧ q.normalize = q) (hmem : p ∈ files) :
    ∃ before after report, d.SetsAside s files p before after report := by
  obtain ⟨report, hyield, hreport⟩ := hp.exists_report s.marking
  have hlocated : ∀ q ∈ files, q.Located := fun q hq => Path.located_iff.mpr (hfiles q hq)
  have hincreasing := Path.sortDistinct_increasing files
  have hall : ∀ q, q ∈ Path.sortDistinct files ↔ q ∈ files :=
    fun q => Path.mem_sortDistinct_iff hlocated
  obtain ⟨before, after, hsorted⟩ := List.append_of_mem ((hall p).mpr hmem)
  rw [hsorted] at hincreasing hall
  have hothers : Path.sortDistinct (files.filter (· ≠ p)) = before ++ after :=
    Path.sortDistinct_filter_ne hlocated hsorted
  have hown : d.reports s [p] = [report] := by simp [reports, hyield]
  -- The file yields no methods, so both analyses insert the same ones.
  have hresult : (d.analyze s files).result = (d.analyze s (files.filter (· ≠ p))).result := by
    rw [analyze, analyze, hsorted, hothers, Surface.merge_result, Surface.merge_result]
    simp [hyield]
  refine ⟨before, after, report, hincreasing, hall, hreport, hown, hresult, fun h => ?_,
    fun first second h => ?_⟩
  · have h' := fun first second => hresult ▸ h first second
    rw [analyze_reports h, analyze_reports h', hsorted, hothers, reports_append, reports_append]
    refine ⟨?_, rfl⟩
    rw [← List.singleton_append (l := after), reports_append, hown]
    rfl
  · obtain ⟨hfile, hreported⟩ := analyze_reports_of_duplicate h
    obtain ⟨hfile', hreported'⟩ := analyze_reports_of_duplicate (hresult ▸ h)
    rw [hothers] at hfile' hreported'
    rw [hsorted] at hreported
    exact ⟨hfile', hreported, hreported'⟩

theorem unusable_doubled : Unusable { tree := doubledTree } ⟨"/work/b.ts"⟩ := by
  have hfound : (((({ tree := doubledTree } : Disk).read [] ⟨"/work/b.ts"⟩).toOption.bind
      (SourceFile.read? ⟨"/work/b.ts"⟩)).bind fun f =>
        f.tree.preorder.find? Syntax.Tree.isFault).isSome = true := by decide +kernel
  obtain ⟨t, ht⟩ := Option.isSome_iff_exists.mp hfound
  obtain ⟨f, hf, ht⟩ := Option.bind_eq_some_iff.mp ht
  obtain ⟨bytes, hread, hf⟩ := Option.bind_eq_some_iff.mp hf
  exact .faulty (eq_ok_of_toOption hread) hf (List.mem_of_find?_eq_some ht) (List.find?_some ht)

/-- The file between the declarations is reported on, and so is the file behind it that declares the
method again. -/
theorem doubled_file_isolated : ∃ before after report failure,
    Unusable { tree := doubledTree } ⟨"/work/b.ts"⟩ ∧
      SetsAside { tree := doubledTree } (.ofRoot ⟨"/work"⟩) doubledFiles ⟨"/work/b.ts"⟩ before after
        report ∧
      (({ tree := doubledTree } : Disk).analyze (.ofRoot ⟨"/work"⟩) doubledFiles).result =
        .error failure ∧ failure.message =
          "duplicate exposed method 'api:load' declared at /work/a.ts:2 and /work/c.ts:2" := by
  obtain ⟨before, after, report, hsets⟩ :=
    unusable_doubled.isolated (.ofRoot ⟨"/work"⟩) doubledFiles_normal (by decide)
  obtain ⟨failure, hresult, hmessage⟩ := analyze_doubledTree
  exact ⟨before, after, report, failure, unusable_doubled, hsets, hresult, hmessage⟩

end Disk

end CallBridge
