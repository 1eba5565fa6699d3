import CallBridge.Extraction
import CallBridge.Proofs.Generated.Wiring
import CallBridge.Proofs.Text.Identifier

/-! # Names of instances as programs bind them

The instance of a class is named by the class in lower case, or by that name behind the namespace if
it is taken. The second form is never a reserved word, but the first one may be, and is given as it
is: a class `New` has the instance `new`.
-/
namespace CallBridge.Generated

/-- The name is the preferred one behind a namespace, and possibly in front of a number. -/
def IsQualified (preferred namespaceName name : String) : Prop :=
  ∃ suffix, name = namespaceName ++ "_" ++ (preferred ++ suffix) ∧
    (suffix = "" ∨ ∃ k : ℕ, suffix = "_" ++ toString k)

/-- A name is claimed as it is if it is free, and qualified otherwise. -/
theorem claim_cases (taken : List String) (preferred namespaceName : String) :
    preferred ∉ taken ∧ claim taken preferred namespaceName = preferred ∨
      preferred ∈ taken ∧
        IsQualified preferred namespaceName (claim taken preferred namespaceName) := by
  by_cases hfree : preferred ∉ taken
  · exact .inl ⟨hfree, claim_of_notMem hfree namespaceName⟩
  refine .inr ⟨not_not.mp hfree, ?_⟩
  have hspec := (firstFree_spec taken preferred namespaceName 0).1
  unfold claim
  match hn : firstFree taken preferred namespaceName 0 with
  | 0 =>
    rw [hn] at hspec
    exact absurd hspec hfree
  | 1 => exact ⟨"", by rw [String.append_empty]; rfl, .inl rfl⟩
  | n + 2 =>
    exact ⟨"_" ++ toString (n + 2), by simp only [candidate, String.append_assoc], .inr ⟨n + 2, rfl⟩⟩

theorem IsQualified.isBindable {preferred namespaceName name : String}
    (h : IsQualified preferred namespaceName name) (hnamespace : Text.isCamelCase namespaceName = true)
    (hpreferred : ∃ ns, Text.Spells preferred.toList ns) : Text.IsBindable name := by
  obtain ⟨suffix, rfl, hsuffix⟩ := h
  obtain ⟨ns, hns⟩ := hpreferred
  have hparts : ∃ ms, Text.NameParts suffix.toList ms := by
    rcases hsuffix with rfl | ⟨k, rfl⟩
    · exact ⟨[], .nil⟩
    · obtain ⟨ms, hms⟩ := Text.nameParts_toString k
      rw [String.toList_append]
      exact ⟨_, Text.nameParts_underscore.append hms⟩
  obtain ⟨ms, hms⟩ := hparts
  have hback : Text.NameParts (preferred ++ suffix).toList (ns ++ ms) := by
    rw [String.toList_append]
    exact hns.nameParts.append hms
  exact Text.isBindable_qualified hnamespace hback

/-- The classes of some methods have instances whose names were claimed behind all imports. -/
structure InstancesClaimed (before : Names) (ms : List Method) (n : Names) : Prop where
  taken : n.taken = before.taken ++ n.instances.map Prod.snd
  entered : ∀ e ∈ n.instances, n.instance? e.1 = some e.2 ∧ e.2 ∉ before.taken ∧
    ∃ m ∈ ms, m.ownerClass? = some e.1 ∧
      (e.2 = e.1.instanceName ∨ IsQualified e.1.instanceName m.namespaceName e.2)
  preferred : ∀ m ∈ ms, ∀ o, m.ownerClass? = some o →
    o.instanceName ∈ n.taken ∧ ∃ e ∈ n.instances, e.1.same o = true

section Step
variable {before n : Names} {ms : List Method} {m : Method}

theorem InstancesClaimed.claimed (h : InstancesClaimed before ms n) {e : Owner × String}
    (he : e ∈ n.instances) : ∃ q ∈ ms ++ [m], q.ownerClass? = some e.1 ∧
      (e.2 = e.1.instanceName ∨ IsQualified e.1.instanceName q.namespaceName e.2) := by
  obtain ⟨-, -, q, hq, hnamed⟩ := h.entered e he
  exact ⟨q, List.mem_append_left _ hq, hnamed⟩

theorem InstancesClaimed.keep (h : InstancesClaimed before ms n)
    (hnamed : ∀ o, m.ownerClass? = some o → ∃ i, n.instance? o = some i) :
    InstancesClaimed before (ms ++ [m]) n where
  taken := h.taken
  entered := fun e he => ⟨(h.entered e he).1, (h.entered e he).2.1, h.claimed he⟩
  preferred := by
    intro q hq o hqo
    rcases List.mem_append.mp hq with hq | hq
    · exact h.preferred q hq o hqo
    · -- The class was named for an earlier method, in the same lower case.
      rw [List.mem_singleton.mp hq] at hqo
      obtain ⟨i, hi⟩ := hnamed o hqo
      obtain ⟨p, hp, hsame⟩ := Names.lookup_eq_some hi
      obtain ⟨-, -, q', hq', hp', -⟩ := h.entered _ hp
      have hname : p.name = o.name := (Prod.mk.inj (Owner.same_iff.mp hsame)).1
      have htaken := (h.preferred q' hq' p hp').1
      rw [Owner.instanceName, hname] at htaken
      exact ⟨htaken, _, hp, hsame⟩

theorem InstancesClaimed.enter (h : InstancesClaimed before ms n) {o : Owner} {name : String}
    (ho : m.ownerClass? = some o) (hi : n.instance? o = none)
    (hname : name = claim n.taken o.instanceName m.namespaceName) :
    InstancesClaimed before (ms ++ [m])
      { n.reserve name with instances := n.instances ++ [(o, name)] } := by
  have hfree : name ∉ n.taken := hname ▸ claim_notMem _ _ _
  have hcases := claim_cases n.taken o.instanceName m.namespaceName
  rw [← hname] at hcases
  refine ⟨?_, fun e he => ?_, fun q hq p hqp => ?_⟩
  · simp [Names.reserve, h.taken]
  · rcases List.mem_append.mp he with he | he
    · obtain ⟨hlookup, hbefore, -⟩ := h.entered e he
      exact ⟨Names.lookup_append_of_eq_some hlookup, hbefore, h.claimed he⟩
    · obtain rfl := List.mem_singleton.mp he
      have hbefore : name ∉ before.taken := fun hmem => hfree (h.taken ▸ List.mem_append_left _ hmem)
      exact ⟨Names.lookup_append_self name hi, hbefore, m, List.mem_append_right _
        (List.mem_singleton_self m), ho, hcases.imp And.right And.right⟩
  · rcases List.mem_append.mp hq with hq | hq
    · obtain ⟨htaken, e, he, hsame⟩ := h.preferred q hq p hqp
      exact ⟨List.mem_append_left _ htaken, e, List.mem_append_left _ he, hsame⟩
    · rw [List.mem_singleton.mp hq, ho] at hqp
      obtain rfl := Option.some.inj hqp
      refine ⟨?_, _, List.mem_append_right _ List.mem_cons_self, Owner.same_self _⟩
      change o.instanceName ∈ n.taken ++ [name]
      rcases hcases with ⟨-, hpreferred⟩ | ⟨htaken, -⟩
      · exact List.mem_append_right _ (List.mem_singleton.mpr hpreferred.symm)
      · exact List.mem_append_left _ htaken

theorem InstancesClaimed.step (m : Method) (h : InstancesClaimed before ms n) :
    InstancesClaimed before (ms ++ [m]) (n.bindInstance m) := by
  rcases bindInstance_cases n m with ⟨he, hnamed⟩ | ⟨o, name, ho, hi, hname, he⟩
  · rw [he]
    exact h.keep hnamed
  · rw [he]
    exact h.enter ho hi hname

end Step

theorem instancesClaimed_foldl {before : Names} (hnone : before.instances = []) (ms : List Method) :
    InstancesClaimed before ms (ms.foldl Names.bindInstance before) := by
  induction ms using List.reverseRecOn with
  | nil => exact ⟨by simp [hnone], by simp [hnone], by simp⟩
  | append_singleton ms m ih =>
    rw [List.foldl_append]
    exact ih.step m

/-- The names that are taken are those that are imported, and no instance is named. -/
structure TakenImported (acc : Names × ImportSet) : Prop where
  taken : ∀ x, x ∈ acc.1.taken ↔ acc.2.source? x ≠ none
  instances : acc.1.instances = []

theorem FunctionsImported.takenImported {runtime : String} {fs : List String}
    {acc : Names × ImportSet} (h : FunctionsImported runtime fs acc) : TakenImported acc := by
  refine ⟨fun x => ?_, h.instances⟩
  rw [h.source, h.taken]
  by_cases hx : x ∈ fs <;> simp [hx]

theorem TakenImported.step {output : Path} {acc next : Names × ImportSet} {m : Method}
    (h : TakenImported acc) (hnext : Backend.importOwner output acc m = .ok next) :
    TakenImported next := by
  unfold Backend.importOwner at hnext
  split at hnext
  · cases hnext
    exact h
  · next hnone =>
    obtain ⟨set, hadd, hnext⟩ := bind_eq_ok_iff.mp hnext
    obtain rfl := pure_eq_ok_iff.mp hnext
    let name := claim acc.1.taken m.owner.name m.namespaceName
    have hself : (acc.1.bindImport m.owner m.namespaceName).import? m.owner = some name :=
      Names.lookup_append_self name hnone
    have hname : (acc.1.bindImport m.owner m.namespaceName).importOf m.owner = name := by
      simp [Names.importOf, hself]
    rw [hname] at hadd
    refine ⟨fun x => ?_, h.instances⟩
    change x ∈ acc.1.taken ++ [name] ↔ set.source? x ≠ none
    rw [(ImportSet.source?_of_add hadd).2, List.mem_append, List.mem_singleton, h.taken]
    by_cases hx : x = name <;> simp [hx]

theorem exists_before {s : Surface} {output : Path} {runtime : String} {n : Names}
    {imports : ImportSet} (h : Backend.bindings s output runtime = .ok (n, imports)) :
    ∃ before, TakenImported (before, imports) ∧ InstancesClaimed before s.methods n := by
  obtain ⟨start, hstart, hfunctions⟩ := importRuntime_foldlM runtime output.text s.methods
  unfold Backend.bindings at h
  obtain ⟨start', hstart', h⟩ := bind_eq_ok_iff.mp h
  obtain rfl := Except.ok.inj (hstart.symm.trans hstart')
  obtain ⟨⟨before, last⟩, hlast, h⟩ := bind_eq_ok_iff.mp h
  obtain ⟨rfl, rfl⟩ := Prod.mk.inj (pure_eq_ok_iff.mp h)
  have htaken : TakenImported (before, last) :=
    of_foldlM_eq_ok (P := fun _ acc => TakenImported acc) hfunctions.takenImported
      (fun _ _ _ _ hacc hnext => hacc.step hnext) hlast
  exact ⟨before, htaken, instancesClaimed_foldl htaken.instances s.methods⟩

theorem ofSurface_of_bindings {s : Surface} {output : Path} {runtime : String} {n : Names}
    {imports : ImportSet} (h : Backend.bindings s output runtime = .ok (n, imports)) :
    ∃ b, Backend.ofSurface s output runtime = .ok b ∧ b.imports = imports ∧
      b.instances = s.instances.map fun o => ⟨n.instanceOf o, n.importOf o⟩ := by
  let b : Backend :=
    { imports
      instances := s.instances.map fun o => ⟨n.instanceOf o, n.importOf o⟩
      registrations := s.methods.map fun m => ⟨m.shape.isStream, m.key, Backend.handler n m⟩ }
  refine ⟨b, ?_, rfl, rfl⟩
  rw [Backend.ofSurface, h]
  rfl

theorem TakenImported.mem_names_iff {before : Names} {imports : ImportSet}
    (h : TakenImported (before, imports)) {x : String} :
    x ∈ imports.bindings.map ImportBinding.name ↔ x ∈ before.taken := by
  rw [h.taken, ne_eq, ImportSet.source?_eq_none_iff, not_not]

section Named
variable {s : Surface} {before n : Names} (h : InstancesClaimed before s.methods n)
include h

/-- The name of the instance of a class was claimed for a method of the class. -/
theorem InstancesClaimed.exists_claim {o : Owner} (ho : o ∈ s.instances) :
    n.instanceOf o ∉ before.taken ∧ ∃ m ∈ s.methods, m.className = some o.name ∧
      (n.instanceOf o = o.instanceName ∨
        IsQualified o.instanceName m.namespaceName (n.instanceOf o)) := by
  obtain ⟨q, hq, hqo⟩ := Surface.exists_method_of_mem_instances ho
  obtain ⟨-, e, he, hsame⟩ := h.preferred q hq o hqo
  obtain ⟨hlookup, hbefore, m, hm, hme, hnamed⟩ := h.entered e he
  have hname : e.1.name = o.name := (Prod.mk.inj (Owner.same_iff.mp hsame)).1
  have hinstance : n.instanceOf o = e.2 := by
    have hfound := (Names.lookup_congr hsame n.instances).symm.trans hlookup
    simp [Names.instanceOf, Names.instance?, hfound]
  have hclass : m.className = some e.1.name := by
    obtain ⟨c, hc, he⟩ := Option.map_eq_some_iff.mp hme
    rw [hc, ← he]
  rw [hinstance, Owner.instanceName, ← hname]
  exact ⟨hbefore, m, hm, hclass, hnamed⟩

/-- The lower case of a class name that no import has is the name of an instance. -/
theorem InstancesClaimed.exists_instance {o : Owner} (ho : o ∈ s.instances)
    (hfree : o.instanceName ∉ before.taken) : ∃ p ∈ s.instances, n.instanceOf p = o.instanceName := by
  obtain ⟨q, hq, hqo⟩ := Surface.exists_method_of_mem_instances ho
  have htaken := (h.preferred q hq o hqo).1
  rw [h.taken] at htaken
  obtain ⟨e, he, hname⟩ := List.mem_map.mp ((List.mem_append.mp htaken).resolve_left hfree)
  obtain ⟨hlookup, -, m, hm, hme, -⟩ := h.entered e he
  obtain ⟨p, hp, hsame⟩ := Surface.exists_mem_instances hm hme
  have hfound := (Names.lookup_congr hsame n.instances).symm.trans hlookup
  refine ⟨p, hp, ?_⟩
  simp [Names.instanceOf, Names.instance?, hfound, hname]

end Named

/-- The backend of a surface whose classes have names that can be bound, in namespaces in camel case.
The constants in its text are the instances, and no other line begins like one. A name of an instance
can be bound unless it is a class name whose lower case is a reserved word. All can be bound if and
only if every owner class with such a lower case finds it taken by an import. -/
theorem instanceNames_bindable_iff {s : Surface}
    (hclasses : ∀ m ∈ s.methods, ∀ c, m.className = some c → Text.IsBindable c)
    (hnamespaces : ∀ m ∈ s.methods, Text.isCamelCase m.namespaceName = true) (output : Path)
    (runtime : String) :
    ∃ b, Backend.ofSurface s output runtime = .ok b ∧
      StandsIn (b.instances.map fun i => "const " ++ i.name ++ " = new " ++ i.className ++ "();")
        "const " b.text ∧
      (∀ i ∈ b.instances, Text.IsBindable i.name ∨
        Text.IsReservedName i.name ∧ ∃ o ∈ s.instances, i.name = o.instanceName) ∧
      ((∀ i ∈ b.instances, Text.IsBindable i.name) ↔
        ∀ o ∈ s.instances, Text.IsReservedName o.instanceName →
          o.instanceName ∈ b.imports.bindings.map ImportBinding.name) := by
  obtain ⟨-, n, imports, hbindings, -, -⟩ := exists_bindings s output runtime
  obtain ⟨before, htaken, hclaimed⟩ := exists_before hbindings
  obtain ⟨b, hb, rfl, hinstances⟩ := ofSurface_of_bindings hbindings
  have hspelled : ∀ o : Owner, ∀ m ∈ s.methods, m.className = some o.name →
      ∃ ns, Text.Spells o.instanceName.toList ns := fun o m hm hc =>
    Text.exists_spells_lowerFirst (hclasses m hm _ hc).spelled
  have hnames : ∀ o ∈ s.instances, Text.IsBindable (n.instanceOf o) ∨
      Text.IsReservedName (n.instanceOf o) ∧ n.instanceOf o = o.instanceName := by
    intro o ho
    obtain ⟨-, m, hm, hclass, hname | hqualified⟩ := hclaimed.exists_claim ho
    · rw [hname]
      by_cases hreserved : Text.IsReservedName o.instanceName
      · exact .inr ⟨hreserved, rfl⟩
      · exact .inl ((Text.isBindable_iff (hspelled o m hm hclass)).mpr hreserved)
    · exact .inl (hqualified.isBindable (hnamespaces m hm) (hspelled o m hm hclass))
  refine ⟨b, hb, b.standsIn_text.2.1, ?_⟩
  rw [hinstances]
  refine ⟨fun i hi => ?_, ?_, ?_⟩
  · obtain ⟨o, ho, rfl⟩ := List.mem_map.mp hi
    exact (hnames o ho).imp_right fun ⟨hreserved, hname⟩ => ⟨hreserved, o, ho, hname⟩
  · intro hall o ho hreserved
    by_contra himport
    obtain ⟨p, hp, hname⟩ :=
      hclaimed.exists_instance ho fun hmem => himport (htaken.mem_names_iff.mpr hmem)
    obtain ⟨ns, hns, hword⟩ := hname ▸ hreserved
    exact (hall _ (List.mem_map_of_mem hp)).free ns hns hword
  · intro hall i hi
    obtain ⟨o, ho, rfl⟩ := List.mem_map.mp hi
    refine (hnames o ho).resolve_right fun ⟨hreserved, hname⟩ => ?_
    have himported := htaken.mem_names_iff.mp (hall o ho (hname ▸ hreserved))
    exact (hclaimed.exists_claim ho).1 (hname ▸ himported)

theorem clashing_instanceNames_bindable :
    (∀ m ∈ clashingSurface.methods, ∀ c, m.className = some c → Text.IsBindable c) ∧
      (∀ m ∈ clashingSurface.methods, Text.isCamelCase m.namespaceName = true) ∧
      ∃ b, Backend.ofSurface clashingSurface ⟨"/work/src/main/bridge.ts"⟩ "run/backend" = .ok b ∧
        StandsIn (b.instances.map fun i => "const " ++ i.name ++ " = new " ++ i.className ++ "();")
          "const " b.text ∧
        ∀ i ∈ b.instances, Text.IsBindable i.name := by
  have hclasses : ∀ m ∈ clashingSurface.methods, ∀ c, m.className = some c → Text.IsBindable c := by
    have hstore : ∀ m ∈ clashingSurface.methods, ∀ c ∈ m.className, c = "Store" := by
      decide
    intro m hm c hc
    obtain rfl := hstore m hm c hc
    exact Text.isBindable_of_isIdentifier (by decide) (by decide)
  have hnamespaces : ∀ m ∈ clashingSurface.methods, Text.isCamelCase m.namespaceName = true := by
    decide
  obtain ⟨b, hb, hlines, -, hiff⟩ := instanceNames_bindable_iff hclasses hnamespaces
    ⟨"/work/src/main/bridge.ts"⟩ "run/backend"
  refine ⟨hclasses, hnamespaces, b, hb, hlines, hiff.mpr fun o ho hreserved => ?_⟩
  obtain ⟨m, hm, hmo⟩ := Surface.exists_method_of_mem_instances ho
  have hstore : ∀ m ∈ clashingSurface.methods, ∀ o ∈ m.ownerClass?, o.instanceName = "store" := by
    decide
  rw [hstore m hm o hmo, Text.isReservedName_iff (by decide)] at hreserved
  exact absurd hreserved (by decide)

/-- A file with a class whose name is a reserved word in upper case. -/
def reservedFile : SourceFile :=
  let source : Syntax.Source := ⟨("export class New \x7b\n  // @expose\n" ++
    "  run(): void \x7b\x7d\n\x7d\n").toUTF8⟩
  ⟨⟨"/work/src/new.ts"⟩, source, Syntax.Dialect.plain.parse source⟩

def reservedMethod : Method :=
  ⟨"api", "run", some "New", [], .value "void", ⟨"/work/src/new.ts"⟩, 3, .named, []⟩

theorem reservedFile_methods : (reservedFile.extract {}).methods = [reservedMethod] := by
  decide +kernel

theorem reserved_instanceName :
    reservedFile.faultLine? = none ∧ (reservedFile.extract {}).methods = [reservedMethod] ∧
      Text.IsBindable "New" ∧ Text.isCamelCase reservedMethod.namespaceName = true ∧
      ∃ b, Backend.ofSurface ⟨[reservedMethod], List.pairwise_singleton _ _⟩
          ⟨"/work/src/main/bridge.ts"⟩ "run/backend" = .ok b ∧
        ∃ i ∈ b.instances, i.text = "const new = new New();" ∧ ¬ Text.IsBindable i.name := by
  let s : Surface := ⟨[reservedMethod], List.pairwise_singleton _ _⟩
  have hread : (Backend.bindings s ⟨"/work/src/main/bridge.ts"⟩ "run/backend").toOption.map
      (fun r => (r.1.instanceOf ⟨"New", ⟨"/work/src/new.ts"⟩⟩,
        r.1.importOf ⟨"New", ⟨"/work/src/new.ts"⟩⟩)) = some ("new", "New") := by
    decide +kernel
  obtain ⟨⟨n, imports⟩, hbindings, hnamed⟩ := Option.map_eq_some_iff.mp hread
  let owner : Owner := ⟨"New", ⟨"/work/src/new.ts"⟩⟩
  obtain ⟨hnew, hclass⟩ : n.instanceOf owner = "new" ∧ n.importOf owner = "New" :=
    Prod.mk.inj hnamed
  obtain ⟨b, hb, -, hinstances⟩ := ofSurface_of_bindings (eq_ok_of_toOption hbindings)
  have howner : owner ∈ s.instances := by
    obtain ⟨o, ho, -⟩ := Surface.exists_mem_instances (s := s) (m := reservedMethod)
      (List.mem_singleton_self _) rfl
    obtain ⟨m, hm, hmo⟩ := Surface.exists_method_of_mem_instances ho
    obtain rfl := List.mem_singleton.mp hm
    obtain rfl : owner = o := Option.some.inj hmo
    exact ho
  have hcreated : ⟨"new", "New"⟩ ∈ b.instances := by
    rw [hinstances]
    refine List.mem_map.mpr ⟨owner, howner, ?_⟩
    rw [hnew, hclass]
  refine ⟨by decide +kernel, reservedFile_methods,
    Text.isBindable_of_isIdentifier (by decide) (by decide), by decide, b, hb, _, hcreated,
    by decide, fun hbindable => ?_⟩
  obtain ⟨ns, hns⟩ := hbindable.spelled
  refine hbindable.free ns hns ?_
  rw [hns.eq_map (by decide)]
  decide

end CallBridge.Generated
