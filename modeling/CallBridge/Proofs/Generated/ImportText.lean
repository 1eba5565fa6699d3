import CallBridge.Proofs.Generated.Forwarding
import CallBridge.Proofs.Generated.TypeImports
import CallBridge.Proofs.Generated.Wiring
import CallBridge.Proofs.Path.Specifier
import CallBridge.Proofs.Run.Settings
import CallBridge.Proofs.Text.StringLiteral

/-! # Import statements as programs read them

An import statement names its module by a literal. The specifier stands between the quotes as it is,
so it has to consist of characters that stand for themselves. Settings are refused if the runtime
has a quote in its specifier; a backslash or a line end in it, and all three in the path of a source
file or in the name of a package, are not looked for.
-/
namespace CallBridge.Generated

def ImportStatement.clause (i : ImportStatement) : String :=
  (if i.typeOnly then "import type" else "import") ++ " \x7b " ++
    ", ".intercalate (i.bindings.map ImportBinding.text) ++ " \x7d "

/-- Between the `from` and the last semicolon of the statement stands one literal on one line, for the
specifier. -/
def ImportStatement.WellFormed (i : ImportStatement) : Prop :=
  ∃ written, i.text = i.clause ++ "from " ++ written ++ ";" ∧
    Text.IsLiteralOf i.specifier written

theorem ImportStatement.text_eq (i : ImportStatement) :
    i.text = i.clause ++ "from " ++ ("'" ++ i.specifier ++ "'") ++ ";" := by
  have hopen : " \x7d from '" = " \x7d " ++ "from " ++ "'" := rfl
  have hclose : "';" = "'" ++ ";" := rfl
  simp only [text, clause, hopen, hclose, String.append_assoc]

/-- A statement is well formed exactly if its specifier can stand between quotes as it is. -/
theorem ImportStatement.wellFormed_iff (i : ImportStatement) :
    i.WellFormed ↔ Text.IsPlain i.specifier := by
  rw [← Text.isLiteralOf_quoted_iff]
  constructor
  · rintro ⟨written, htext, hwritten⟩
    have hsame : i.clause ++ "from " ++ ("'" ++ i.specifier ++ "'") ++ ";" =
        i.clause ++ "from " ++ written ++ ";" := i.text_eq.symm.trans htext
    obtain rfl := (String.append_right_inj _).mp ((String.append_left_inj _).mp hsame)
    exact hwritten
  · intro h
    exact ⟨_, i.text_eq, h⟩

namespace ImportSet

/-- The statements of a set are well formed exactly if every module that it imports from has a plain
specifier. -/
theorem wellFormed_iff (s : ImportSet) :
    (∀ i ∈ s.statements, i.WellFormed) ↔ ∀ a ∈ s.specifiers, Text.IsPlain a := by
  unfold statements
  constructor
  · intro h a ha
    exact (ImportStatement.wellFormed_iff _).mp (h _ (List.mem_map_of_mem ha))
  · intro h i hi
    obtain ⟨a, ha, rfl⟩ := List.mem_map.mp hi
    exact (ImportStatement.wellFormed_iff _).mpr (h a ha)

theorem mem_specifiers_iff_source? {s : ImportSet} {a : String} :
    a ∈ s.specifiers ↔ ∃ name source, s.source? name = some source ∧ source.specifier = a := by
  simp only [mem_specifiers, source?_eq_some_iff]
  constructor
  · rintro ⟨b, hb, ha⟩
    exact ⟨b.name, b.source, hb, ha⟩
  · rintro ⟨name, source, hb, ha⟩
    exact ⟨_, hb, ha⟩

theorem mem_specifiers_of_add {s s' : ImportSet} {name a : String} {source : ImportSource}
    (h : s.add name source = .ok s') (ha : a ∈ s'.specifiers) :
    a = source.specifier ∨ a ∈ s.specifiers := by
  obtain ⟨-, hafter⟩ := source?_of_add h
  obtain ⟨n, x, hn, rfl⟩ := mem_specifiers_iff_source?.mp ha
  rw [hafter] at hn
  split_ifs at hn
  · exact .inl (Option.some.inj hn ▸ rfl)
  · exact .inr (mem_specifiers_iff_source?.mpr ⟨n, x, hn, rfl⟩)

end ImportSet

namespace Backend
variable {s : Surface} {output : Path} {runtime : String}

theorem runtimeNames_ne_nil {m : Method} {ms : List Method} (hm : m ∈ ms) : runtimeNames ms ≠ [] := by
  unfold runtimeNames
  cases hstream : m.shape.isStream with
  | false =>
    have hany : (ms.any fun m => !m.shape.isStream) = true :=
      List.any_eq_true.mpr ⟨m, hm, by simp [hstream]⟩
    simp [hany]
  | true =>
    have hany : (ms.any fun m => m.shape.isStream) = true := List.any_eq_true.mpr ⟨m, hm, hstream⟩
    simp [hany]

theorem mem_specifiers_of_importRuntime {acc next : Names × ImportSet} {name a : String}
    (h : importRuntime runtime acc name = .ok next) (ha : a ∈ next.2.specifiers) :
    a = runtime ∨ a ∈ acc.2.specifiers := by
  obtain ⟨set, hadd, h⟩ := bind_eq_ok_iff.mp h
  obtain rfl := pure_eq_ok_iff.mp h
  exact ImportSet.mem_specifiers_of_add hadd ha

theorem mem_specifiers_of_importOwner {acc next : Names × ImportSet} {m : Method} {a : String}
    (h : importOwner output acc m = .ok next) (ha : a ∈ next.2.specifiers) :
    a = (ModuleRef.file m.file).specifier output ∨ a ∈ acc.2.specifiers := by
  unfold importOwner at h
  split at h
  · cases h
    exact .inr ha
  · obtain ⟨set, hadd, h⟩ := bind_eq_ok_iff.mp h
    obtain rfl := pure_eq_ok_iff.mp h
    have hadded := ImportSet.mem_specifiers_of_add hadd ha
    dsimp only at hadded
    exact hadded

/-- Every import of a backend was added for the runtime or for a method. -/
theorem of_mem_specifiers {names : Names} {imports : ImportSet}
    (h : bindings s output runtime = .ok (names, imports)) {a : String}
    (ha : a ∈ imports.specifiers) :
    s.methods ≠ [] ∧ a = runtime ∨
      ∃ m ∈ s.methods, (ModuleRef.file m.file).specifier output = a := by
  unfold bindings at h
  obtain ⟨start, hstart, h⟩ := bind_eq_ok_iff.mp h
  obtain ⟨⟨before, last⟩, hlast, h⟩ := bind_eq_ok_iff.mp h
  obtain ⟨-, rfl⟩ := Prod.mk.inj (pure_eq_ok_iff.mp h)
  let Has (acc : Names × ImportSet) : Prop := a ∈ acc.2.specifiers
  have howned : (∃ m ∈ s.methods, a = (ModuleRef.file m.file).specifier output) ∨ Has start :=
    exists_added_of_foldlM (fun _ _ _ h => mem_specifiers_of_importOwner h) hlast ha
  rcases howned with ⟨m, hm, ha⟩ | hstarted
  · exact .inr ⟨m, hm, ha.symm⟩
  · have hruntime : (∃ f ∈ runtimeNames s.methods, a = runtime) ∨
        Has ({}, ImportSet.empty output.text false) :=
      exists_added_of_foldlM (fun _ _ _ => mem_specifiers_of_importRuntime) hstart hstarted
    rcases hruntime with ⟨f, hf, ha⟩ | hnone
    · refine .inl ⟨fun hnil => ?_, ha⟩
      rw [hnil] at hf
      cases hf
    · cases hnone

/-- A backend can be made for every surface. It imports from the runtime and from the file of each
method, and from nowhere else. -/
theorem exists_specifiers (s : Surface) (output : Path) (runtime : String) :
    ∃ b, ofSurface s output runtime = .ok b ∧ ∀ a, a ∈ b.imports.specifiers ↔
      s.methods ≠ [] ∧ a = runtime ∨
        ∃ m ∈ s.methods, (ModuleRef.file m.file).specifier output = a := by
  obtain ⟨before, n, imports, hbindings, ⟨firsts, -, howners, hfirst⟩, -⟩ :=
    exists_bindings s output runtime
  refine ⟨_, by rw [ofSurface, hbindings]; rfl, fun a => ?_⟩
  change a ∈ imports.specifiers ↔ _
  refine ⟨of_mem_specifiers hbindings, ?_⟩
  rintro (⟨hne, rfl⟩ | ⟨m, hm, rfl⟩)
  · obtain ⟨m, hm⟩ := List.exists_mem_of_ne_nil _ hne
    obtain ⟨f, hf⟩ := List.exists_mem_of_ne_nil _ (runtimeNames_ne_nil hm)
    exact ImportSet.mem_specifiers_iff_source?.mpr ⟨f, _, howners.functions f hf, rfl⟩
  · obtain ⟨first, hmem, hsame⟩ := hfirst m hm
    obtain ⟨l, -, hsource⟩ := howners.imported first hmem
    have hfile : first.file.components = m.file.components :=
      (Prod.mk.inj (Owner.same_iff.mp hsame)).2
    have himported := ImportSet.mem_specifiers_iff_source?.mpr ⟨l, _, hsource, rfl⟩
    simp only [ownerSource] at himported
    rw [← specifier_congr hfile output]
    exact himported

end Backend

namespace Bridge

/-- A bridge imports from the runtime, unless its surface is empty. -/
theorem mem_specifiers_iff {s : Surface} {runtime : String} {b : Bridge}
    (h : ofSurface s runtime = .ok b) {a : String} :
    a ∈ b.imports.specifiers ↔ s.methods ≠ [] ∧ a = runtime := by
  have himports := (of_ofSurface h).2
  have hnames : runtimeNames s = [] ↔ s.methods = [] := by
    rw [← List.length_eq_zero_iff (l := s.methods), ← Surface.size, ← s.isEmpty_iff]
    constructor
    · intro hnil
      by_contra hfull
      simp [runtimeNames, hfull] at hnil
    · intro hempty
      have hmethods : s.methods = [] := List.length_eq_zero_iff.mp (s.isEmpty_iff.mp hempty)
      simp [runtimeNames, hempty, hmethods]
  rw [ImportSet.mem_specifiers_iff_source?]
  constructor
  · rintro ⟨name, source, hsource, rfl⟩
    rw [himports] at hsource
    split_ifs at hsource with hname
    obtain rfl := Option.some.inj hsource
    exact ⟨fun hnil => List.ne_nil_of_mem hname (hnames.mpr hnil), rfl⟩
  · rintro ⟨hne, rfl⟩
    obtain ⟨name, hname⟩ := List.exists_mem_of_ne_nil _ (mt hnames.mp hne)
    exact ⟨name, _, (himports name).trans (if_pos hname), rfl⟩

end Bridge

/-- The types module imports from the modules of the types that signatures mention. -/
theorem Types.mem_specifiers_iff {s : Surface} {output : Path} {t : Types}
    (h : ofSurface s output = .ok t) {a : String} :
    a ∈ t.imports.specifiers ↔
      ∃ m ∈ s.methods, ∃ r ∈ m.typeRefs, r.module.specifier output = a := by
  simp only [ImportSet.mem_specifiers_iff_source?, source?_imports_iff h]
  constructor
  · rintro ⟨name, source, ⟨m, hm, r, hr, -, rfl⟩, ha⟩
    exact ⟨m, hm, r, hr, ha⟩
  · rintro ⟨m, hm, r, hr, ha⟩
    exact ⟨r.name, _, ⟨m, hm, r, hr, rfl, rfl⟩, ha⟩

/-- A file whose path is plain has a plain specifier, whatever the path of the output is. -/
theorem isPlain_specifier_file {p : Path} (hp : Text.IsPlain p.text) (output : Path) :
    Text.IsPlain ((ModuleRef.file p).specifier output) :=
  Path.specifier_file_chars (by decide) (by decide) hp output

/-- In all three modules that settings ask for, the import statements stand in the text, with no other
line that begins like one, and all of them are well formed exactly if the runtime has neither a
backslash nor a line end in it, where it is imported, and the specifiers of source files and of
mentioned modules are plain. The settings were checked, so the runtime has no quote. -/
theorem imports_wellFormed_iff {settings : Settings} (hsettings : settings.validate = .ok ())
    (s : Surface) :
    (∃ b, Backend.ofSurface s settings.resolvedOutputs.backend settings.runtime.backend = .ok b ∧
      StandsIn (b.imports.statements.map ImportStatement.text) "import " b.text ∧
      ((∀ i ∈ b.imports.statements, i.WellFormed) ↔
        (s.methods ≠ [] → Text.IsUnbroken settings.runtime.backend) ∧
        ∀ m ∈ s.methods,
          Text.IsPlain ((ModuleRef.file m.file).specifier settings.resolvedOutputs.backend))) ∧
    (∃ b, Bridge.ofSurface s settings.runtime.bridge = .ok b ∧
      StandsIn (b.imports.statements.map ImportStatement.text) "import " b.text ∧
      ((∀ i ∈ b.imports.statements, i.WellFormed) ↔
        (s.methods ≠ [] → Text.IsUnbroken settings.runtime.bridge))) ∧
    (∀ t, Types.ofSurface s settings.resolvedOutputs.types = .ok t →
      StandsIn (t.imports.statements.map ImportStatement.text) "import " t.text ∧
      ((∀ i ∈ t.imports.statements, i.WellFormed) ↔
        ∀ m ∈ s.methods, ∀ r ∈ m.typeRefs,
          Text.IsPlain (r.module.specifier settings.resolvedOutputs.types))) := by
  obtain ⟨hbackend, hbridge⟩ := Settings.quote_notMem_runtime hsettings
  refine ⟨?_, ?_, fun t ht => ?_⟩
  · obtain ⟨b, hb, hspecifiers⟩ := Backend.exists_specifiers s settings.resolvedOutputs.backend
      settings.runtime.backend
    refine ⟨b, hb, b.standsIn_text.1, ?_⟩
    rw [ImportSet.wellFormed_iff, ← Text.isPlain_iff_isUnbroken hbackend]
    simp only [hspecifiers]
    constructor
    · intro h
      exact ⟨fun hne => h _ (.inl ⟨hne, rfl⟩), fun m hm => h _ (.inr ⟨m, hm, rfl⟩)⟩
    · rintro ⟨hruntime, hfiles⟩ a (⟨hne, rfl⟩ | ⟨m, hm, rfl⟩)
      · exact hruntime hne
      · exact hfiles m hm
  · obtain ⟨b, hb, -⟩ := Bridge.exists_ofSurface s settings.runtime.bridge
    refine ⟨b, hb, b.standsIn_text, ?_⟩
    rw [ImportSet.wellFormed_iff, ← Text.isPlain_iff_isUnbroken hbridge]
    simp only [Bridge.mem_specifiers_iff hb]
    constructor
    · intro h hne
      exact h _ ⟨hne, rfl⟩
    · rintro h a ⟨hne, rfl⟩
      exact h hne
  · refine ⟨t.standsIn_text, ?_⟩
    rw [ImportSet.wellFormed_iff]
    simp only [Types.mem_specifiers_iff ht]
    constructor
    · intro h m hm r hr
      exact h _ ⟨m, hm, r, hr, rfl⟩
    · rintro h a ⟨m, hm, r, hr, rfl⟩
      exact h m hm r hr

theorem clashing_imports_wellFormed :
    (Settings.ofRoot ⟨"/work"⟩).validate = .ok () ∧
      ∃ b, Backend.ofSurface clashingSurface (Settings.ofRoot ⟨"/work"⟩).resolvedOutputs.backend
          (Settings.ofRoot ⟨"/work"⟩).runtime.backend = .ok b ∧
        StandsIn (b.imports.statements.map ImportStatement.text) "import " b.text ∧
        ∀ i ∈ b.imports.statements, i.WellFormed := by
  have hvalid : (Settings.ofRoot ⟨"/work"⟩).validate = .ok () := (Settings.ready_ofRoot rfl).valid
  obtain ⟨⟨b, hb, hlines, hiff⟩, -⟩ := imports_wellFormed_iff hvalid clashingSurface
  have hfiles : ∀ m ∈ clashingSurface.methods, Text.IsPlain m.file.text := by
    decide
  refine ⟨hvalid, b, hb, hlines, hiff.mpr ⟨fun _ => by decide, fun m hm => ?_⟩⟩
  exact isPlain_specifier_file (hfiles m hm) _

/-- A function of a file that has a quote in its name. -/
def quotedSurface : Surface where
  methods := [⟨"api", "run", none, [], .value "void", ⟨"/work/src/it's.ts"⟩, 2, .named, []⟩]
  ordered := List.pairwise_singleton _ _

theorem quoted_file_import_broken :
    (Settings.ofRoot ⟨"/work"⟩).validate = .ok () ∧
      ∃ b, Backend.ofSurface quotedSurface (Settings.ofRoot ⟨"/work"⟩).resolvedOutputs.backend
          (Settings.ofRoot ⟨"/work"⟩).runtime.backend = .ok b ∧
        ∃ i ∈ b.imports.statements,
          i.text = "import { run } from '../it's';" ∧ ¬ i.WellFormed := by
  refine ⟨(Settings.ready_ofRoot rfl).valid, ?_⟩
  have hwritten : ((Backend.ofSurface quotedSurface
      (Settings.ofRoot ⟨"/work"⟩).resolvedOutputs.backend
      (Settings.ofRoot ⟨"/work"⟩).runtime.backend).toOption.map fun b => b.imports.statements) =
      some [⟨false, "@bridgegen/runtime/backend",
          [⟨"register", "@bridgegen/runtime/backend", .named "register"⟩]⟩,
        ⟨false, "../it's", [⟨"run", "../it's", .named "run"⟩]⟩] := by
    decide +kernel
  obtain ⟨b, hb, hstatements⟩ := Option.map_eq_some_iff.mp hwritten
  refine ⟨b, eq_ok_of_toOption hb, ⟨false, "../it's", [⟨"run", "../it's", .named "run"⟩]⟩, ?_, ?_, ?_⟩
  · rw [hstatements]
    exact .tail _ List.mem_cons_self
  · decide
  · rw [ImportStatement.wellFormed_iff]
    decide

end CallBridge.Generated
