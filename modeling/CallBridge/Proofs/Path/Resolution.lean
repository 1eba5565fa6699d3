import CallBridge.Proofs.Generated.ImportSet
import CallBridge.Proofs.Path.Specifier

/-! # Specifiers read back

The specifier that is written for a file is read, in the directory of the output, as the file
without its extension. A file that is named in another way, without its extension or with that of a
script, is written with the same specifier, so a generated file imports it from one module.
-/
namespace CallBridge

/-- `stem` is left of a name without the longest extension that specifiers leave out. -/
def HasStem (name stem : String) : Prop :=
  (∃ e ∈ strippedExtensions, name = stem ++ e ∧
      ∀ e' ∈ strippedExtensions, ∀ front, name = front ++ e' → e'.length ≤ e.length) ∨
    stem = name ∧ ∀ e ∈ strippedExtensions, ∀ front, name ≠ front ++ e

/-- Something other than dots stands in front of the extension of a name. -/
def HasProperStem (name : String) : Prop :=
  ∀ k, ∀ e ∈ strippedExtensions, name.toList ≠ List.replicate k '.' ++ e.toList

theorem hasProperStem_of_head?_ne {name : String} (h : name.toList.head? ≠ some '.') :
    HasProperStem name := by
  have hdot : ∀ e ∈ strippedExtensions, e.toList.head? = some '.' := by decide
  intro k e he hname
  refine h (hname ▸ ?_)
  cases k with
  | zero => exact hdot e he
  | succ k => rfl

theorem hasStem_stripExtension (name : String) : HasStem name (stripExtension name) := by
  have hread : ∀ {e front : String}, name = front ++ e →
      Text.before? e.toList name.toList = some front.toList := by
    rintro e front rfl
    exact Text.before?_eq_some_iff.mpr String.toList_append
  unfold stripExtension
  split
  · next stem hstem =>
    obtain ⟨earlier, e, later, hsplit, hbefore, hearlier⟩ := List.findSome?_eq_some_iff.mp hstem
    have hname := Text.before?_eq_some_iff.mp hbefore
    refine .inl ⟨e, by simp [hsplit], String.toList_inj.mp (by simpa using hname), ?_⟩
    rintro e' he' front hfront
    -- An extension that is tried later is not longer.
    have hlater : (earlier ++ e :: later).Pairwise fun e e' => ¬ e.toList <:+ e'.toList := by
      rw [← hsplit]
      decide
    rw [hsplit, List.mem_append, List.mem_cons] at he'
    rcases he' with he' | rfl | he'
    · exact absurd (hearlier e' he') (by simp [hread hfront])
    · exact le_rfl
    · by_contra hlong
      refine (List.pairwise_cons.mp (List.pairwise_append.mp hlater).2.1).1 e' he' ?_
      refine List.suffix_of_suffix_length_le ⟨stem, hname.symm⟩ ⟨front.toList, ?_⟩ ?_
      · rw [hfront, String.toList_append]
      · simp only [String.length_toList]
        omega
  · next hnone =>
    refine .inr ⟨rfl, fun e he front hfront => ?_⟩
    simpa [hread hfront] using List.findSome?_eq_none_iff.mp hnone e he

theorem HasStem.unique {name stem stem' : String} (h : HasStem name stem) (h' : HasStem name stem') :
    stem = stem' := by
  rcases h with ⟨e, he, hname, hlongest⟩ | ⟨hself, hnone⟩
  · rcases h' with ⟨e', he', hname', hlongest'⟩ | ⟨-, hnone'⟩
    · have hlength : e.length = e'.length :=
        Nat.le_antisymm (hlongest' e he _ hname) (hlongest e' he' _ hname')
      have hboth : stem.toList ++ e.toList = stem'.toList ++ e'.toList := by
        rw [← String.toList_append, ← String.toList_append, ← hname, hname']
      rw [← String.length_toList, ← String.length_toList] at hlength
      exact String.toList_inj.mp (List.append_inj' hboth hlength).1
    · exact absurd hname (hnone' e he _)
  · rcases h' with ⟨e', he', hname', -⟩ | ⟨hself', -⟩
    · exact absurd hname' (hnone e' he' _)
    · rw [hself, hself']

theorem isFileName_stripExtension {name : String} (hn : isFileName name = true)
    (hproper : HasProperStem name) : isFileName (stripExtension name) = true := by
  rcases stripExtension_cases name with ⟨e, he, hstrip⟩ | ⟨hself, -⟩
  · obtain ⟨-, -, -, hslash⟩ := isFileName_iff.mp hn
    have hdots : ∀ k, stripExtension name ≠ String.ofList (List.replicate k '.') := by
      intro k hk
      rw [hk, String.toList_ofList] at hstrip
      exact hproper k e he hstrip
    rw [hstrip, List.mem_append, not_or] at hslash
    exact isFileName_iff.mpr ⟨hdots 0, hdots 1, hdots 2, hslash.1⟩
  · rwa [hself]

namespace Path

theorem normalize_join_current {p : Path} (hp : p.isAbsolute = false) (base : Path) :
    (base.join ⟨"./" ++ p.text⟩).normalize = (base.join p).normalize := by
  have hcurrent : (⟨"./" ++ p.text⟩ : Path) = join ⟨"."⟩ p := by
    have hslash : ".".endsWith "/" = false := by decide +kernel
    rw [join, hp]
    simp [hslash]
  have hrelative : (join ⟨"."⟩ p).isAbsolute = false := by
    rw [isAbsolute_join (by decide) hp]
    decide
  rw [hcurrent, normalize, normalize, resolve, resolve, foldl_join hrelative, foldl_join hp,
    foldl_join hp]
  rfl

/-- The mark in front of a specifier does not change what it is read as. -/
theorem ofSpecifier_toSpecifier {p : Path} (hp : isAbsolute ⟨p.stripped⟩ = false) (dir : Path) :
    ModuleRef.ofSpecifier dir p.toSpecifier = .file (dir.join ⟨p.stripped⟩).normalize := by
  have hspecifier : p.toSpecifier =
      if p.stripped.startsWith "../" || p.stripped == ".." then p.stripped
      else "./" ++ p.stripped := rfl
  rw [hspecifier]
  split_ifs with hclimbs
  · have hfile : (p.stripped.startsWith "./" || p.stripped.startsWith "../" ||
        p.stripped == "." || p.stripped == "..") = true := by
      rcases (Bool.or_eq_true _ _).mp hclimbs with h | h <;> simp [h]
    rw [ModuleRef.ofSpecifier, if_pos hfile]
  · have hmark : ("./" ++ p.stripped).startsWith "./" = true :=
      String.startsWith_string_iff.mpr (by simp)
    rw [ModuleRef.ofSpecifier, if_pos (by simp [hmark])]
    exact congrArg ModuleRef.file (normalize_join_current hp dir)

theorem stripped_climb {way : Path} {k : ℕ} (h : way.components = List.replicate k .parent) :
    way.stripped = "/".intercalate ((List.replicate k Component.parent).map Component.text) := by
  rw [stripped, h, List.map_replicate]
  exact stripExtension_climb k

theorem stripped_names {way : Path} {k : ℕ} {init : Location} {name : String}
    (h : way.components = List.replicate k .parent ++ (init ++ [name]).map .normal) :
    way.stripped = "/".intercalate ((List.replicate k Component.parent ++
      (init ++ [stripExtension name]).map Component.normal).map Component.text) := by
  have htext : ∀ last : String, (List.replicate k Component.parent ++
      (init ++ [last]).map Component.normal).map Component.text =
        (List.replicate k ".." ++ init) ++ [last] := by
    intro last
    have hnames : (init.map Component.normal).map Component.text = init := by
      rw [List.map_map]
      exact List.map_id _
    simp only [List.map_append, hnames, List.map_replicate, List.append_assoc]
    rfl
  rw [stripped, h, htext, htext]
  exact stripExtension_intercalate _ _

theorem ofSpecifier_way {dir way : Path} {shared left names : Location}
    (hdir : dir.normalize.components = .root :: (shared ++ left).map .normal)
    (hnames : ∀ n ∈ names, isFileName n = true)
    (hway : way.stripped = "/".intercalate
      ((List.replicate left.length Component.parent ++ names.map Component.normal).map
        Component.text)) :
    ModuleRef.ofSpecifier dir way.toSpecifier = .file (ofLocation (shared ++ names)) := by
  obtain ⟨hrelative, hcomponents⟩ := components_written fun _ =>
    Component.Written.of_mem_way (k := left.length) hnames
  rw [← hway] at hrelative hcomponents
  rw [ofSpecifier_toSpecifier hrelative, normalize_join_way hdir hcomponents]

/-- The ways to files of one directory part from the way to another one at the same place, unless
they end on it. -/
theorem exists_way_beside {d : Path} {dl l : Location}
    (hd : d.components = .root :: dl.map .normal) :
    ∃ shared left init : Location, dl = shared ++ left ∧ l = shared ++ init ∧
      ∀ (q : Path) (name : String), q.components = .root :: (l ++ [name]).map .normal →
        ¬ q.components <+: d.components →
        (relative d q).components =
          List.replicate left.length .parent ++ (init ++ [name]).map .normal := by
  obtain ⟨shared, left, init, rfl, rfl, hshared⟩ := exists_shared dl l
  refine ⟨shared, left, init, rfl, rfl, fun q name hq hbeside => ?_⟩
  have hcommon : commonLength d.components q.components = shared.length + 1 := by
    have hlast : Component.root :: (shared ++ init ++ [name]).map Component.normal =
        (Component.root :: (shared ++ init).map Component.normal) ++ [.normal name] := by simp
    rw [hd, hq, hlast] at hbeside
    rw [hd, hq, hlast, commonLength_append_singleton hbeside, commonLength, if_pos rfl, hshared]
  rw [List.append_assoc] at hq
  rw [relative, relativeComponents_of_shared hd hq hcommon]
  exact components_of_resolved (.climbing _ fun n hn =>
    isFileName_of_components hq n (List.mem_append_right _ hn))

section Module
variable {output dir m : Path} (hdir : output.parent? = some dir)
include hdir

theorem importDirectory_eq : importDirectory output = dir.normalize := by
  rw [importDirectory, hdir]

variable (habsolute : dir.isAbsolute = true)
include habsolute

/-- The directory of the output and those above it are read as they are. -/
theorem ofSpecifier_of_above {l : Location} (hm : m.components = .root :: l.map .normal)
    (habove : m.components <+: dir.normalize.components) :
    ModuleRef.ofSpecifier dir ((ModuleRef.file m).specifier output) = .file (ofLocation l) := by
  have hd := (located_normalize habsolute).components_eq
  obtain ⟨shared, left, names, hleft, rfl, hlongest, hway⟩ := exists_way hd hm
  obtain rfl : names = [] := by
    have hshared := (hlongest _ habove (List.prefix_refl _)).length_le
    rw [hm] at hshared
    simpa using hshared
  rw [List.map_nil, List.append_nil] at hway
  rw [hleft] at hd
  rw [ModuleRef.specifier, importDirectory_eq hdir]
  exact ofSpecifier_way hd (by simp) (by simpa using stripped_climb hway)

theorem ofSpecifier_of_beside {l : Location} {name : String}
    (hm : m.components = .root :: (l ++ [name]).map .normal) (hproper : HasProperStem name)
    (hbeside : ¬ m.components <+: dir.normalize.components) :
    ModuleRef.ofSpecifier dir ((ModuleRef.file m).specifier output) =
      .file (ofLocation (l ++ [stripExtension name])) := by
  have hd := (located_normalize habsolute).components_eq
  have hnames := isFileName_of_components hm
  obtain ⟨shared, left, init, hleft, rfl, hway⟩ := exists_way_beside (l := l) hd
  have hstripped := stripped_names (hway m name hm hbeside)
  rw [hleft] at hd
  rw [ModuleRef.specifier, importDirectory_eq hdir, List.append_assoc]
  refine ofSpecifier_way hd (fun n hn => ?_) hstripped
  rcases List.mem_append.mp hn with hn | hn
  · exact hnames n (by simp [hn])
  · rw [List.mem_singleton.mp hn]
    exact isFileName_stripExtension (hnames name (by simp)) hproper

/-- Files of one directory whose names differ in the extension only are one module. -/
theorem specifier_eq_of_beside {g : Path} {l : Location} {name given : String}
    (hm : m.components = .root :: (l ++ [name]).map .normal)
    (hg : g.components = .root :: (l ++ [given]).map .normal)
    (hstem : stripExtension given = stripExtension name)
    (hmb : ¬ m.components <+: dir.normalize.components)
    (hgb : ¬ g.components <+: dir.normalize.components) :
    (ModuleRef.file g).specifier output = (ModuleRef.file m).specifier output := by
  obtain ⟨shared, left, init, -, -, hway⟩ :=
    exists_way_beside (l := l) (located_normalize habsolute).components_eq
  rw [specifier_file_eq_iff, importDirectory_eq hdir, stripped_names (hway g given hg hgb),
    stripped_names (hway m name hm hmb), hstem]

end Module

end Path

/-- `given` names a file `name` with the stem `stem` as it is, with the extension of a script, or
without its extension, if nothing else in it is taken for one. -/
def NamesFile (name stem given : String) : Prop :=
  given = name ∨ (∃ e ∈ [".js", ".jsx", ".mjs", ".cjs"], given = stem ++ e) ∨
    given = stem ∧ HasStem stem stem

theorem NamesFile.hasStem {name stem given : String} (h : NamesFile name stem given)
    (hname : HasStem name stem) : HasStem given stem := by
  have hscripts : ∀ e ∈ [".js", ".jsx", ".mjs", ".cjs"], e ∈ strippedExtensions ∧
      ∀ e' ∈ strippedExtensions, e.length < e'.length → ¬ e.toList <:+ e'.toList := by decide
  rcases h with rfl | ⟨e, he, rfl⟩ | ⟨rfl, hself⟩
  · exact hname
  · obtain ⟨hstripped, hlongest⟩ := hscripts e he
    refine .inl ⟨e, hstripped, rfl, fun e' he' front hfront => ?_⟩
    by_contra hlong
    have hboth : stem.toList ++ e.toList = front.toList ++ e'.toList := by
      rw [← String.toList_append, hfront, String.toList_append]
    refine hlongest e' he' (by omega) ?_
    exact List.suffix_of_suffix_length_le ⟨_, hboth⟩ ⟨_, rfl⟩
      (by simp only [String.length_toList]; omega)
  · exact hself

/-- The specifier of a file is read, in the directory of the output, as the file without its
extension, or as it is if it is that directory or above it. However a file is named, its name is
imported from one module, and importing it again never collides. -/
theorem specifier_read_back {output m : Path} (ho : output.isAbsolute = true)
    (hroot : output.components ≠ [.root]) (hm : m.isAbsolute = true)
    (hnormal : m.normalize.same m = true)
    (hproper : ∀ name, m.fileName? = some name → HasProperStem name) :
    ∃ dir, output.parent? = some dir ∧
      (m.components <+: dir.normalize.components ∧
          ModuleRef.ofSpecifier dir ((ModuleRef.file m).specifier output) = .file m.normalize ∨
        ¬ m.components <+: dir.normalize.components ∧
          ∃ (l : Location) (name stem : String),
            m.components = .root :: (l ++ [name]).map .normal ∧ HasStem name stem ∧
            ModuleRef.ofSpecifier dir ((ModuleRef.file m).specifier output) =
              .file (.ofLocation (l ++ [stem])) ∧
            ∀ (g : Path) (given : String), g.components = .root :: (l ++ [given]).map .normal →
              NamesFile name stem given → ¬ g.components <+: dir.normalize.components →
              (ModuleRef.file g).specifier output = (ModuleRef.file m).specifier output ∧
              ∀ (s s' : Generated.ImportSet) (bound : String) (imported : ImportedName),
                s.add bound ⟨(ModuleRef.file m).specifier output, imported⟩ = .ok s' →
                s'.add bound ⟨(ModuleRef.file g).specifier output, imported⟩ = .ok s') := by
  obtain ⟨dir, hdir⟩ := Path.exists_parent? ho hroot
  have habsolute := Path.isAbsolute_parent? ho hdir
  obtain ⟨ml, hml⟩ := Path.components_of_same_normalize hm hnormal
  refine ⟨dir, hdir, ?_⟩
  by_cases habove : m.components <+: dir.normalize.components
  · have hself : m.normalize = .ofLocation ml := by
      rw [Path.normalize, Path.same_normalize_iff.mp hnormal, hml, Path.ofLocation]
    rw [hself]
    exact .inl ⟨habove, Path.ofSpecifier_of_above hdir habsolute hml habove⟩
  · refine .inr ⟨habove, ?_⟩
    rcases List.eq_nil_or_concat' ml with rfl | ⟨l, name, rfl⟩
    · refine absurd ?_ habove
      rw [hml, (Path.located_normalize habsolute).components_eq]
      exact ⟨_, rfl⟩
    · have hname : m.fileName? = some name := by
        rw [Path.fileName?, hml, List.map_append, ← List.cons_append, List.map_singleton,
          List.getLast?_concat]
      refine ⟨l, name, stripExtension name, hml, hasStem_stripExtension name,
        Path.ofSpecifier_of_beside hdir habsolute hml (hproper name hname) habove,
        fun g given hg hnames hgb => ?_⟩
      have hstem := (hnames.hasStem (hasStem_stripExtension name)).unique
        (hasStem_stripExtension given)
      have hone := Path.specifier_eq_of_beside hdir habsolute hml hg hstem.symm habove hgb
      refine ⟨hone, fun s s' bound imported hadd => ?_⟩
      rw [hone]
      exact Generated.ImportSet.add_of_source?_eq_some
        (by rw [(Generated.ImportSet.source?_of_add hadd).2, if_pos rfl])

theorem user_specifier_read_back :
    let output : Path := ⟨"/app/src/renderer/bridge.generated.d.ts"⟩
    let m : Path := ⟨"/app/src/models/user.ts"⟩
    (output.isAbsolute = true ∧ output.components ≠ [.root] ∧ m.isAbsolute = true ∧
      m.normalize.same m = true ∧ ∀ name, m.fileName? = some name → HasProperStem name) ∧
      ∃ dir file, output.parent? = some dir ∧
        ModuleRef.ofSpecifier dir ((ModuleRef.file m).specifier output) = .file file := by
  intro output m
  have hnormal : m.normalize.same m = true := Path.same_normalize_iff.mpr (by decide)
  have hproper : ∀ name, m.fileName? = some name → HasProperStem name := by
    intro name hname
    have huser : m.fileName? = some "user.ts" := by decide
    obtain rfl := Option.some.inj (hname.symm.trans huser)
    exact hasProperStem_of_head?_ne (by decide)
  have h := specifier_read_back (by decide : output.isAbsolute = true) (by decide) (by decide)
    hnormal hproper
  refine ⟨⟨by decide, by decide, by decide, hnormal, hproper⟩, ?_⟩
  obtain ⟨dir, hdir, ⟨-, hread⟩ | ⟨-, l, name, stem, -, -, hread, -⟩⟩ := h
  · exact ⟨dir, _, hdir, hread⟩
  · exact ⟨dir, _, hdir, hread⟩

/-- A directory that is named like a file is read as it is in an output below it. A file with the
extension of a script inside its name is not taken for the same module if its own extension is left
out, and the names of both collide. -/
theorem scripts_read_apart :
    let output : Path := ⟨"/app/x.ts/out.ts"⟩
    let m : Path := ⟨"/app/x.ts"⟩
    (output.isAbsolute = true ∧ output.components ≠ [.root] ∧ m.isAbsolute = true ∧
      m.normalize.same m = true ∧ m.fileName? = some "x.ts" ∧ HasProperStem "x.ts") ∧
    (output.parent? = some m ∧ HasStem "x.ts" "x" ∧
      ModuleRef.ofSpecifier m ((ModuleRef.file m).specifier output) = .file m) ∧
    HasStem "chart.js.ts" "chart.js" ∧
    ModuleRef.ofSpecifier ⟨"/app/src"⟩ "./chart.js" = .file ⟨"/app/src/chart.js"⟩ ∧
    (ModuleRef.file ⟨"/app/src/chart.js.ts"⟩).specifier ⟨"/app/src/main/api.d.ts"⟩ = "../chart.js" ∧
    (ModuleRef.file ⟨"/app/src/chart.js"⟩).specifier ⟨"/app/src/main/api.d.ts"⟩ = "../chart" ∧
    ((Generated.ImportSet.empty "api" true).add "Chart" ⟨"../chart.js", .named "Chart"⟩ >>= fun s =>
      s.add "Chart" ⟨"../chart", .named "Chart"⟩).toOption.isNone = true := by
  intro output m
  have hstem : HasStem "x.ts" "x" := by
    have hstrip : stripExtension "x.ts" = "x" := by decide +kernel
    exact hstrip ▸ hasStem_stripExtension "x.ts"
  have hscript : HasStem "chart.js.ts" "chart.js" := by
    have hstrip : stripExtension "chart.js.ts" = "chart.js" := by decide +kernel
    exact hstrip ▸ hasStem_stripExtension "chart.js.ts"
  exact ⟨⟨by decide, by decide, by decide, Path.same_normalize_iff.mpr (by decide), by decide,
    hasProperStem_of_head?_ne (by decide)⟩, ⟨by decide +kernel, hstem, by decide +kernel⟩, hscript,
    by decide +kernel⟩

end CallBridge
