import CallBridge.Proofs.Extraction.TypeNames
import CallBridge.Proofs.Extraction.TypeParameters
import CallBridge.Proofs.Generated.TypeImports

/-! # What type names mean in the type declaration module

Signatures are written into the module as they stand in their sources. A name without a qualifier
that its source declares or imports is imported by the module from the same place. A type parameter
and a name that the source says nothing of are not imported for the signature; the module binds such
a name only if another signature asks for it or an interface has it.
-/
namespace CallBridge

def SourceFile.Imports (f : SourceFile) (name : String) (i : Import) : Prop :=
  ∃ statement ∈ f.tree.preorder, statement.is .importStatement = true ∧
    (name, i) ∈ Scope.importsOf f statement

theorem SourceFile.imports_iff {f : SourceFile} {name : String} {i : Import} :
    f.Imports name i ↔ (name, i) ∈ (Scope.ofFile f).imports := by
  unfold SourceFile.Imports Scope.ofFile
  simp only [List.mem_flatMap, List.mem_filter, and_assoc]

theorem Scope.typeExport?_eq_none {f : SourceFile} {name : String} (h : ¬ f.DeclaresType name) :
    (Scope.ofFile f).typeExport? name = none := by
  unfold Scope.typeExport?
  refine if_neg fun hany => h ?_
  obtain ⟨entry, hentry, hname⟩ := List.any_eq_true.mp hany
  obtain ⟨statement, hs, hsome⟩ := List.mem_filterMap.mp hentry
  refine ⟨statement, hs, ?_⟩
  rw [hsome, Option.map_some, beq_iff_eq.mp hname]

namespace Generated.Types

/-- The method asks for no import of the name. The module binds it only if another method asks for
one, or if it is the name of an interface. -/
structure Unasked (s : Surface) (t : Types) (m : Method) (name : String) : Prop where
  unasked : ∀ r ∈ m.typeRefs, r.name ≠ name
  others : name ∈ t.boundNames →
    (∃ m' ∈ s.methods, m' ≠ m ∧ ∃ r ∈ m'.typeRefs, r.name = name) ∨
      ∃ m' ∈ s.methods, Text.upperFirst m'.namespaceName = name

/-- A type name in the signature of a function, which a declaration of the file gives, means what it
means there. -/
structure KeepsMeaning (f : SourceFile) (ds : List Diagnostic) (declaration function : Syntax.Tree)
    (s : Surface) (output : Path) (t : Types) (m : Method) (name : String) : Prop where
  parameter : f.BindsType declaration function name → Unasked s t m name
  /-- A type of the file is imported from the file: unless an export list changes its name, the
  export that the file makes of it, or its own name if the file does not export it, which is
  reported. -/
  declared : ¬ f.BindsType declaration function name → f.DeclaresType name → ∃ imported,
    t.imports.source? name = some ⟨(ModuleRef.file f.path).specifier output, imported⟩ ∧
      (f.KeepsName name → (∃ x ∈ f.exports, x.binding = name ∧ x.exported = imported) ∨
        imported = .named name ∧ m.typeNotExported name ∈ ds)
  /-- What the file imports is imported from the same module under the same name. -/
  imported : ¬ f.BindsType declaration function name → ¬ f.DeclaresType name →
    ∀ i, f.Imports name i → ∃ i, f.Imports name i ∧
      t.imports.source? name = some ⟨i.module.specifier output, i.imported⟩
  global : ¬ f.BindsType declaration function name → ¬ f.DeclaresType name →
    (∀ i, ¬ f.Imports name i) → Unasked s t m name

section Meaning
variable {f : SourceFile} {s : Surface} {output : Path} {t : Types} {m : Method} {name : String}

theorem unasked_of_forall (h : ofSurface s output = .ok t) (hm : ∀ r ∈ m.typeRefs, r.name ≠ name) :
    Unasked s t m name := by
  refine ⟨hm, fun hname => ?_⟩
  rcases List.mem_append.mp hname with hname | hname
  · obtain ⟨m', hm', r, hr, hrname⟩ := (mem_importedNames_iff h).mp hname
    refine .inl ⟨m', hm', ?_, r, hr, hrname⟩
    rintro rfl
    exact hm r hr hrname
  · exact .inr ((mem_interfaceNames_iff h).mp hname)

theorem exists_interface (h : ofSurface s output = .ok t) (hm : m ∈ s.methods) :
    ∃ i ∈ t.interfaces, i.name = Text.upperFirst m.namespaceName ∧
      Signature.ofMethod m ∈ i.members := by
  have hmem : m ∈ s.groups.flatMap Group.methods := by
    rw [Surface.groups, Surface.runs_flatMap_methods]
    exact hm
  obtain ⟨g, hg, hgroup⟩ := List.mem_flatMap.mp hmem
  refine ⟨Interface.ofGroup g, ?_, ?_, List.mem_map_of_mem hgroup⟩
  · rw [(ofSurface_eq_ok h).2]
    exact List.mem_map_of_mem hg
  · rw [Surface.name_of_mem_runs hg hgroup]
    rfl

/-- A mentioned name that is no type parameter and comes from somewhere is imported from there. -/
theorem source?_of_typeRef? {c : Candidate} {namespaceName : String} {shape : ReturnShape}
    {r : TypeRef} (h : ofSurface s output = .ok t)
    (hm : c.toMethod f (Scope.ofFile f) namespaceName shape ∈ s.methods)
    (hmentioned : name ∈ Signature.mentioned f c.function) (hfree : name ∉ c.typeParameters f)
    (href : Candidate.typeRef? f (Scope.ofFile f) name = some r) :
    t.imports.source? name = some (typeSource output r) := by
  have hname := Candidate.typeRef?_name href
  refine (source?_imports_iff h).mpr ⟨_, hm, r, ?_, hname, rfl⟩
  exact Candidate.mem_typeRefs_iff.mpr (hname ▸ ⟨hmentioned, hfree, href⟩)

theorem keepsMeaning_of_mentioned {c : Candidate} {declaration : Syntax.Tree} {declared : Export}
    {namespaceName : String} {shape : ReturnShape} {ds : List Diagnostic}
    (h : ofSurface s output = .ok t) (hread : c.ReadFrom f (Scope.ofFile f) declaration declared)
    (hm : c.toMethod f (Scope.ofFile f) namespaceName shape ∈ s.methods)
    (hreported : c.typeWarnings f (Scope.ofFile f) ⊆ ds)
    (hmentioned : name ∈ Signature.mentioned f c.function) :
    KeepsMeaning f ds declaration c.function s output t
      (c.toMethod f (Scope.ofFile f) namespaceName shape) name := by
  have hbinds := hread.mem_typeParameters_iff name
  refine ⟨fun hparameter => ?_, fun hfree hdeclared => ?_, fun hfree hdeclared i hi => ?_,
    fun hfree hdeclared himported => ?_⟩
  · refine unasked_of_forall h fun r hr hname => ?_
    exact (Candidate.mem_typeRefs_iff.mp hr).2.1 (hname ▸ hbinds.mpr hparameter)
  · obtain ⟨e, he⟩ := exists_typeExport? hdeclared
    have hsource := source?_of_typeRef? h hm hmentioned (mt hbinds.mp hfree)
      (typeRef?_of_typeExport? he).2
    have hname : name ∈ c.freeTypes f :=
      List.mem_filter.mpr ⟨hmentioned, by simpa using mt hbinds.mp hfree⟩
    refine ⟨e.outside name, hsource, fun hkeeps => ?_⟩
    rcases exists_typeExport_or_warned hname he with hexport | ⟨rfl, hwarned⟩
    · exact .inl (hexport hkeeps)
    · exact .inr ⟨rfl, hreported hwarned⟩
  · have htype := Scope.typeExport?_eq_none hdeclared
    obtain ⟨last, hlast⟩ := Scope.exists_last? (SourceFile.imports_iff.mp hi)
    have href : Candidate.typeRef? f (Scope.ofFile f) name =
        some ⟨name, last.imported, last.module⟩ := by
      rw [Candidate.typeRef?, Scope.resolve, htype, hlast]
    have hsource := source?_of_typeRef? h hm hmentioned (mt hbinds.mp hfree) href
    exact ⟨last, SourceFile.imports_iff.mpr (Scope.last?_eq_some hlast), hsource⟩
  · refine unasked_of_forall h fun r hr hname => ?_
    obtain ⟨-, -, href⟩ := Candidate.mem_typeRefs_iff.mp hr
    have htype := Scope.typeExport?_eq_none hdeclared
    have hlast : Scope.last? (Scope.ofFile f).imports name = none := by
      refine Option.eq_none_iff_forall_not_mem.mpr fun i hi => ?_
      exact himported i (SourceFile.imports_iff.mpr (Scope.last?_eq_some hi))
    rw [hname, Candidate.typeRef?, Scope.resolve, htype, hlast] at href
    cases href

/-- The signature of a method stands in the interface of its namespace, with types that are texts of
what its declaration declares; and each type name without a qualifier in the declared types keeps
its meaning in the module. -/
theorem type_names_keep_meaning {marking : Marking} (hm : m ∈ (f.extract marking).methods)
    (hs : m ∈ s.methods) (h : ofSurface s output = .ok t) :
    (∃ i ∈ t.interfaces, i.name = Text.upperFirst m.namespaceName ∧
      Signature.ofMethod m ∈ i.members) ∧
    ∃ declaration ∈ f.declarations, ∃ declared c,
      c.ReadFrom f (Scope.ofFile f) declaration declared ∧ f.Records c m ∧
      (∀ p ∈ m.parameters, Signature.Declares f c.function p.type) ∧
      Signature.Declares f c.function m.shape.inner ∧
      ∀ type ∈ Signature.types c.function, ∀ n, type.Mentions n →
        KeepsMeaning f (f.extract marking).diagnostics declaration c.function s output t m
          (f.text n) := by
  refine ⟨exists_interface h hs, ?_⟩
  obtain ⟨statement, hstatement, declaration, declared, c, namespaceName, shape, hdeclaration,
    hread, -, hshape, rfl, hreported⟩ := SourceFile.exists_candidate hm
  have hmem : declaration ∈ f.declarations :=
    List.mem_map.mpr ⟨(declaration, declared), List.mem_filterMap.mpr
      ⟨statement, (List.mem_filter.mp hstatement).1, hdeclaration⟩, rfl⟩
  refine ⟨declaration, hmem, declared, c, hread,
    ⟨⟨statement, hstatement, declaration, declared, hdeclaration, hread⟩, namespaceName, shape,
      hshape, rfl⟩,
    fun p hp => Signature.declares_of_mem_parameters hp, Candidate.declares_of_shape hshape,
    fun d hd n hn => ?_⟩
  refine keepsMeaning_of_mentioned h hread hs (fun w hw => hreported (List.mem_append_left _ hw)) ?_
  exact Signature.mem_mentioned_iff.mpr ⟨d, hd, n, hn, rfl⟩

end Meaning

/-- A file whose signature mentions a type that it imports, a type that it declares, a type parameter
and a global type. -/
def mentioningFile : SourceFile :=
  let source : Syntax.Source := ⟨("import K from 'k';\nclass P \x7b\x7d\n/** @expose */\n" ++
    "export function f<T>(k: K, p: P, t: T): Date \x7b\x7d\n").toUTF8⟩
  ⟨⟨"/app/src/a.ts"⟩, source, Syntax.Dialect.plain.parse source⟩

theorem mentioned_names_keep_meaning :
    ∃ m s t, m ∈ (mentioningFile.extract {}).methods ∧ m ∈ s.methods ∧
      ofSurface s ⟨"/app/types/api.d.ts"⟩ = .ok t ∧ t.boundNames = ["K", "P", "Api"] ∧
      ∃ declaration ∈ mentioningFile.declarations, ∃ c, mentioningFile.Records c m ∧
        ∀ type ∈ Signature.types c.function, ∀ n, type.Mentions n →
          KeepsMeaning mentioningFile (mentioningFile.extract {}).diagnostics declaration
            c.function s ⟨"/app/types/api.d.ts"⟩ t m (mentioningFile.text n) := by
  have hrun : ((Surface.ofMethods (mentioningFile.extract {}).methods).toOption.bind fun s =>
      (ofSurface s ⟨"/app/types/api.d.ts"⟩).toOption.map fun t =>
        ((mentioningFile.extract {}).methods.any fun m => s.methods.contains m, t.boundNames)) =
      some (true, ["K", "P", "Api"]) := by
    decide +kernel
  obtain ⟨s, t, -, ht, hpair⟩ := exists_of_read hrun
  obtain ⟨hany, hnames⟩ := Prod.mk.inj hpair
  obtain ⟨m, hm, hs⟩ := List.any_eq_true.mp hany
  have hs : m ∈ s.methods := by simpa using hs
  obtain ⟨-, declaration, hdeclaration, -, c, -, hrecord, -, -, hmeaning⟩ :=
    type_names_keep_meaning hm hs ht
  exact ⟨m, s, t, hm, hs, ht, hnames, declaration, hdeclaration, c, hrecord, hmeaning⟩

/-- A file that mentions a type of a module by a qualified name, a type parameter, and a global type
that is named like the interface of the namespace. -/
def genericFile : SourceFile :=
  let source : Syntax.Source := ⟨("import * as m from './m';\n/** @expose date */\n" ++
    "export function f<T>(t: T, d: Date): m.User \x7b\x7d\n").toUTF8⟩
  ⟨⟨"/app/src/a.ts"⟩, source, Syntax.Dialect.plain.parse source⟩

/-- Neither the qualifier nor the type parameter, which the file binds, is bound by the module; and
the global type, which the file does not bind, is. -/
theorem names_lose_meaning :
    genericFile.faultLine? = none ∧
    (∃ n ∈ genericFile.tree.preorder, n.is .namespaceImport = true ∧
      genericFile.text n = "* as m") ∧
    (∃ n ∈ genericFile.tree.preorder, n.is .typeParameter = true ∧ genericFile.text n = "T") ∧
    ¬ genericFile.DeclaresType "Date" ∧ (∀ i, ¬ genericFile.Imports "Date" i) ∧
    ∃ s t, Surface.ofMethods (genericFile.extract {}).methods = .ok s ∧
      ofSurface s ⟨"/app/types/api.d.ts"⟩ = .ok t ∧
      t.interfaces.map Interface.text =
        ["export interface Date \x7b\n  f(t: T, d: Date): Promise<m.User>;\n\x7d"] ∧
      t.boundNames = ["Date"] := by
  have hrun : genericFile.faultLine? = none ∧
      (∃ n ∈ genericFile.tree.preorder, n.is .namespaceImport = true ∧
        genericFile.text n = "* as m") ∧
      (∃ n ∈ genericFile.tree.preorder, n.is .typeParameter = true ∧ genericFile.text n = "T") ∧
      ¬ genericFile.DeclaresType "Date" ∧ (Scope.ofFile genericFile).imports.map Prod.fst = [] ∧
      ((Surface.ofMethods (genericFile.extract {}).methods).toOption.bind fun s =>
        (ofSurface s ⟨"/app/types/api.d.ts"⟩).toOption.map fun t =>
          (t.interfaces.map Interface.text, t.boundNames)) =
        some (["export interface Date \x7b\n  f(t: T, d: Date): Promise<m.User>;\n\x7d"],
          ["Date"]) := by
    decide +kernel
  obtain ⟨hfault, hqualifier, hparameter, hdeclared, himports, hrun⟩ := hrun
  obtain ⟨s, t, hs, ht, hpair⟩ := exists_of_read hrun
  obtain ⟨htexts, hnames⟩ := Prod.mk.inj hpair
  refine ⟨hfault, hqualifier, hparameter, hdeclared, fun i hi => ?_, s, t, hs, ht, htexts, hnames⟩
  have hmem := SourceFile.imports_iff.mp hi
  rw [List.map_eq_nil_iff.mp himports] at hmem
  cases hmem

end Generated.Types

end CallBridge
