import CallBridge.Extraction
import CallBridge.Generated.Types
import CallBridge.Proofs.Basic
import CallBridge.Proofs.Generated.ImportSet
import CallBridge.Proofs.Surface.Groups

/-! # Names of the type declaration module

The module imports the types that signatures mention, each under the name by which it is mentioned,
and declares one interface for each namespace. Imports are compared with each other, so they bind
no name twice, and neither do interfaces of namespaces in camel case. Imports and interfaces are not
compared: a mentioned type may be named like an interface.
-/
namespace CallBridge.Generated

def typeSource (output : Path) (r : TypeRef) : ImportSource :=
  ⟨r.module.specifier output, r.imported⟩

namespace Types

variable {s : Surface} {output : Path} {t : Types}

theorem ofSurface_eq_ok (h : ofSurface s output = .ok t) :
    (s.methods.flatMap Method.typeRefs).foldlM (importType output)
      (ImportSet.empty output.text true) = .ok t.imports ∧
    t.interfaces = s.groups.map Interface.ofGroup := by
  unfold ofSurface at h
  obtain ⟨imports, himports, h⟩ := bind_eq_ok_iff.mp h
  obtain rfl := pure_eq_ok_iff.mp h
  exact ⟨himports, rfl⟩

/-- Methods that are collected and whose types can be written, with what is read off the two. -/
theorem exists_of_read {β : Type} {ms : List Method} {read : Surface → Types → β} {b : β}
    (h : ((Surface.ofMethods ms).toOption.bind fun s =>
      (ofSurface s output).toOption.map (read s)) = some b) :
    ∃ s t, Surface.ofMethods ms = .ok s ∧ ofSurface s output = .ok t ∧ read s t = b := by
  obtain ⟨s, hs, h⟩ := Option.bind_eq_some_iff.mp h
  obtain ⟨t, ht, hread⟩ := Option.map_eq_some_iff.mp h
  exact ⟨s, t, eq_ok_of_toOption hs, eq_ok_of_toOption ht, hread⟩

/-- The imports bind what the signatures mention, and nothing else. -/
theorem source?_imports_iff (h : ofSurface s output = .ok t) {name : String}
    {source : ImportSource} :
    t.imports.source? name = some source ↔
      ∃ m ∈ s.methods, ∃ r ∈ m.typeRefs, r.name = name ∧ typeSource output r = source := by
  have hfold : ∀ name source, t.imports.source? name = some source ↔
      ∃ r ∈ s.methods.flatMap Method.typeRefs, r.name = name ∧ typeSource output r = source := by
    refine of_foldlM_eq_ok (P := fun pre set => ∀ name source, set.source? name = some source ↔
      ∃ r ∈ pre, r.name = name ∧ typeSource output r = source) ?_ ?_ (ofSurface_eq_ok h).1
    · simp
    · intro pre r set next hset hnext name source
      obtain ⟨hbefore, hafter⟩ := ImportSet.source?_of_add hnext
      rw [hafter]
      split_ifs with hname
      · constructor
        · intro hsame
          exact ⟨r, List.mem_append_right _ List.mem_cons_self, hname.symm,
            Option.some.inj hsame⟩
        · rintro ⟨q, hq, hqname, rfl⟩
          rcases List.mem_append.mp hq with hq | hq
          · -- The name stood for something, so it was added for the same.
            have hold := (hset r.name _).mpr ⟨q, hq, hqname.trans hname, rfl⟩
            rw [hbefore _ hold]
          · obtain rfl := List.mem_singleton.mp hq
            rfl
      · rw [hset]
        constructor
        · rintro ⟨q, hq, hqname⟩
          exact ⟨q, List.mem_append_left _ hq, hqname⟩
        · rintro ⟨q, hq, hqname, hsource⟩
          rcases List.mem_append.mp hq with hq | hq
          · exact ⟨q, hq, hqname, hsource⟩
          · obtain rfl := List.mem_singleton.mp hq
            exact absurd hqname.symm hname
  rw [hfold]
  constructor
  · rintro ⟨r, hr, hsays⟩
    obtain ⟨m, hm, hr⟩ := List.mem_flatMap.mp hr
    exact ⟨m, hm, r, hr, hsays⟩
  · rintro ⟨m, hm, r, hr, hsays⟩
    exact ⟨r, List.mem_flatMap.mpr ⟨m, hm, hr⟩, hsays⟩

/-- The names that the import statements of the module bind. -/
def importedNames (t : Types) : List String :=
  (t.imports.statements.flatMap ImportStatement.bindings).map ImportBinding.name

/-- The names that the module binds: those of its imports, and those of its interfaces. -/
def boundNames (t : Types) : List String :=
  t.importedNames ++ t.interfaces.map Interface.name

theorem importedNames_nodup (t : Types) : t.importedNames.Nodup :=
  (t.imports.statements_perm.map ImportBinding.name).nodup_iff.mpr t.imports.names_nodup

theorem mem_importedNames_iff (h : ofSurface s output = .ok t) {name : String} :
    name ∈ t.importedNames ↔ ∃ m ∈ s.methods, ∃ r ∈ m.typeRefs, r.name = name := by
  have hbound : name ∈ t.importedNames ↔ ∃ source, t.imports.source? name = some source := by
    rw [importedNames, (t.imports.statements_perm.map _).mem_iff]
    constructor
    · intro hname
      by_contra hnone
      refine ImportSet.source?_eq_none_iff.mp (Option.eq_none_iff_forall_not_mem.mpr ?_) hname
      intro source hsource
      exact hnone ⟨source, hsource⟩
    · rintro ⟨source, hsource⟩
      exact List.mem_map.mpr ⟨_, ImportSet.source?_eq_some_iff.mp hsource, rfl⟩
  rw [hbound]
  simp only [source?_imports_iff h]
  constructor
  · rintro ⟨-, m, hm, r, hr, hname, -⟩
    exact ⟨m, hm, r, hr, hname⟩
  · rintro ⟨m, hm, r, hr, hname⟩
    exact ⟨_, m, hm, r, hr, hname, rfl⟩

theorem interfaceNames_eq (h : ofSurface s output = .ok t) :
    t.interfaces.map Interface.name = s.namespaces.map Text.upperFirst := by
  rw [(ofSurface_eq_ok h).2, Surface.namespaces, List.map_map, List.map_map]
  rfl

theorem mem_interfaceNames_iff (h : ofSurface s output = .ok t) {name : String} :
    name ∈ t.interfaces.map Interface.name ↔
      ∃ m ∈ s.methods, Text.upperFirst m.namespaceName = name := by
  rw [interfaceNames_eq h]
  constructor
  · intro hname
    obtain ⟨namespaceName, hmem, rfl⟩ := List.mem_map.mp hname
    obtain ⟨m, hm, rfl⟩ := Surface.mem_namespaces_iff.mp hmem
    exact ⟨m, hm, rfl⟩
  · rintro ⟨m, hm, rfl⟩
    exact List.mem_map_of_mem (Surface.mem_namespaces_iff.mpr ⟨m, hm, rfl⟩)

theorem interfaceNames_nodup (hs : ∀ m ∈ s.methods, Text.isCamelCase m.namespaceName = true)
    (h : ofSurface s output = .ok t) : (t.interfaces.map Interface.name).Nodup := by
  have hcamel : ∀ name ∈ s.namespaces, Text.isCamelCase name = true := by
    intro name hname
    obtain ⟨m, hm, rfl⟩ := Surface.mem_namespaces_iff.mp hname
    exact hs m hm
  rw [interfaceNames_eq h]
  refine List.Nodup.map_on (fun a ha b hb hab => ?_) s.namespaces_nodup
  rw [← Text.lowerFirst_upperFirst (hcamel a ha), hab, Text.lowerFirst_upperFirst (hcamel b hb)]

/-- Neither the imports nor the interfaces of a surface with namespaces in camel case bind a name
twice, and there is one interface for each namespace. The module binds no name twice if and only if
no type that a signature mentions is named like an interface. -/
theorem boundNames_nodup_iff (hs : ∀ m ∈ s.methods, Text.isCamelCase m.namespaceName = true)
    (h : ofSurface s output = .ok t) :
    t.importedNames.Nodup ∧ (t.interfaces.map Interface.name).Nodup ∧
      t.interfaces.map Interface.namespaceName = s.namespaces ∧
      (t.boundNames.Nodup ↔ ∀ m ∈ s.methods, ∀ r ∈ m.typeRefs, ∀ m' ∈ s.methods,
        r.name ≠ Text.upperFirst m'.namespaceName) := by
  have hnodup := interfaceNames_nodup hs h
  refine ⟨t.importedNames_nodup, hnodup, ?_, ?_⟩
  · rw [(ofSurface_eq_ok h).2, List.map_map]
    rfl
  · rw [boundNames, List.nodup_append]
    constructor
    · rintro ⟨-, -, hapart⟩ m hm r hr m' hm'
      exact hapart _ ((mem_importedNames_iff h).mpr ⟨m, hm, r, hr, rfl⟩) _
        ((mem_interfaceNames_iff h).mpr ⟨m', hm', rfl⟩)
    · intro hdiffer
      refine ⟨t.importedNames_nodup, hnodup, fun name hname name' hname' => ?_⟩
      obtain ⟨m, hm, r, hr, rfl⟩ := (mem_importedNames_iff h).mp hname
      obtain ⟨m', hm', rfl⟩ := (mem_interfaceNames_iff h).mp hname'
      exact hdiffer m hm r hr m' hm'

/-- A surface that mentions types by names of no interface. -/
def plainTypesSurface : Surface where
  methods :=
    let a : Path := ⟨"/work/src/a.ts"⟩
    let user : TypeRef := ⟨"User", .named "User", .file ⟨"/work/src/models"⟩⟩
    [⟨"userAPI", "get", none, [⟨"key", "Key", false, false⟩], .asyncValue "User", a, 1, .named,
        [⟨"Key", .default, .package "keys"⟩, user]⟩,
      ⟨"users", "list", none, [], .asyncStream "User", a, 4, .named, [user]⟩]
  ordered := by decide +kernel

theorem plainTypes_bound_once :
    (∀ m ∈ plainTypesSurface.methods, Text.isCamelCase m.namespaceName = true) ∧
    ∃ t, ofSurface plainTypesSurface ⟨"/work/types/api.d.ts"⟩ = .ok t ∧ t.boundNames.Nodup := by
  have hs : ∀ m ∈ plainTypesSurface.methods, Text.isCamelCase m.namespaceName = true := by
    decide +kernel
  have hok : (ofSurface plainTypesSurface ⟨"/work/types/api.d.ts"⟩).isOk = true := by
    decide +kernel
  obtain ⟨t, ht⟩ := exists_eq_ok hok
  obtain ⟨-, -, -, hiff⟩ := boundNames_nodup_iff hs ht
  exact ⟨hs, t, ht, hiff.mpr (by decide +kernel)⟩

/-- A file that mentions an imported type named like the interface of its namespace. -/
def interfaceNameFile : SourceFile :=
  let source : Syntax.Source := ⟨("import \x7b UserAPI \x7d from './models';\n" ++
    "/** @expose userAPI */\nexport function get(): UserAPI \x7b\x7d\n").toUTF8⟩
  ⟨⟨"/app/src/a.ts"⟩, source, Syntax.Dialect.plain.parse source⟩

/-- The types of such a file can be written, and bind a name twice. -/
theorem interfaceName_bound_twice :
    interfaceNameFile.faultLine? = none ∧
    ∃ s t, Surface.ofMethods (interfaceNameFile.extract {}).methods = .ok s ∧
      (∀ m ∈ s.methods, Text.isCamelCase m.namespaceName = true) ∧
      ofSurface s ⟨"/app/types/api.d.ts"⟩ = .ok t ∧ t.boundNames = ["UserAPI", "UserAPI"] := by
  have hrun : interfaceNameFile.faultLine? = none ∧
      ((Surface.ofMethods (interfaceNameFile.extract {}).methods).toOption.bind fun s =>
        (ofSurface s ⟨"/app/types/api.d.ts"⟩).toOption.map fun t =>
          (s.methods.all fun m => Text.isCamelCase m.namespaceName, t.boundNames)) =
      some (true, ["UserAPI", "UserAPI"]) := by
    decide +kernel
  obtain ⟨hfault, hrun⟩ := hrun
  obtain ⟨s, t, hs, ht, hpair⟩ := exists_of_read hrun
  obtain ⟨hcamel, hnames⟩ := Prod.mk.inj hpair
  exact ⟨hfault, s, t, hs, by simpa using hcamel, ht, hnames⟩

end Types

end CallBridge.Generated
