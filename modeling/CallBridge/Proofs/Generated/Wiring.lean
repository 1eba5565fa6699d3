import CallBridge.Proofs.Generated.ImportHistory
import CallBridge.Proofs.Generated.Lines
import CallBridge.Proofs.Generated.Names
import Mathlib.Data.List.Forall2

/-! # The wiring of a backend module

A backend module can be written for every surface. Each name at its top level is bound once, each
owner is imported under a name of its own, each class has one instance, and every handler belongs to
the declaration of its method.
-/
namespace CallBridge.Generated

def ownerSource (output : Path) (m : Method) : ImportSource :=
  ⟨(ModuleRef.file m.file).specifier output, Backend.importedName m⟩

/-- Methods of one owner agree on how it is exported. -/
def ExportsAgree (ms : List Method) : Prop :=
  ∀ a ∈ ms, ∀ b ∈ ms, a.owner.same b.owner = true → a.exported = b.exported

theorem specifier_congr {a b : Path} (h : a.components = b.components) (output : Path) :
    (ModuleRef.file a).specifier output = (ModuleRef.file b).specifier output := by
  simp only [ModuleRef.specifier, Path.relative, h]

theorem ownerSource_congr {a b : Method} (h : a.owner.same b.owner = true)
    (he : a.exported = b.exported) (output : Path) : ownerSource output a = ownerSource output b := by
  obtain ⟨hname, hfile⟩ := Prod.mk.inj (Owner.same_iff.mp h)
  have hbinding : a.binding = b.binding := hname
  have hspecifier := specifier_congr (a := a.file) (b := b.file) hfile output
  simp only [ownerSource, hspecifier, Backend.importedName, he, hbinding]

structure FunctionsImported (runtime : String) (fs : List String) (acc : Names × ImportSet) :
    Prop where
  taken : acc.1.taken = fs
  imports : acc.1.imports = []
  instances : acc.1.instances = []
  source : ∀ name, acc.2.source? name = if name ∈ fs then some ⟨runtime, .named name⟩ else none

theorem importRuntime_step {runtime : String} {fs : List String} {acc : Names × ImportSet}
    {f : String} (hf : f ∉ fs) (h : FunctionsImported runtime fs acc) :
    ∃ next, Backend.importRuntime runtime acc f = .ok next ∧
      FunctionsImported runtime (fs ++ [f]) next := by
  obtain ⟨names, set⟩ := acc
  have htaken : names.taken = fs := h.taken
  have hclaim : claim names.taken f "" = f := claim_of_notMem (htaken ▸ hf) ""
  have hexact : set.ImportsExactly runtime fs := h.source
  obtain ⟨set', hadd, hset⟩ := hexact.step hf
  refine ⟨(names.reserve f, set'), ?_, ?_, h.imports, h.instances, hset⟩
  · simp only [Backend.importRuntime, hadd, hclaim]
    rfl
  · simp only [Names.reserve, htaken]

theorem runtimeNames_nodup (ms : List Method) : (Backend.runtimeNames ms).Nodup := by
  unfold Backend.runtimeNames
  split_ifs <;> decide

theorem importRuntime_foldlM (runtime : String) (output : String) (ms : List Method) :
    ∃ start, (Backend.runtimeNames ms).foldlM (Backend.importRuntime runtime)
        (({} : Names), ImportSet.empty output false) = .ok start ∧
      FunctionsImported runtime (Backend.runtimeNames ms) start := by
  refine foldlM_ok ⟨rfl, rfl, rfl, fun name => by simp⟩ ?_
  intro pre f post acc hfs h
  refine importRuntime_step (fun hmem => ?_) h
  have hnodup := hfs ▸ runtimeNames_nodup ms
  exact (List.nodup_append.mp hnodup).2.2 f hmem f List.mem_cons_self rfl

structure OwnersImported (output : Path) (runtime : String) (fs : List String) (ms : List Method)
    (acc : Names × ImportSet) : Prop where
  taken : acc.1.taken = fs ++ acc.1.imports.map Prod.snd
  nodup : acc.1.taken.Nodup
  instances : acc.1.instances = []
  bound : ∀ name, acc.2.source? name ≠ none → name ∈ acc.1.taken
  functions : ∀ f ∈ fs, acc.2.source? f = some ⟨runtime, .named f⟩
  owned : ∀ e ∈ acc.1.imports, ∃ m ∈ ms, m.owner = e.1
  imported : ∀ m ∈ ms, ∃ l, acc.1.import? m.owner = some l ∧
    acc.2.source? l = some (ownerSource output m)

theorem FunctionsImported.ownersImported {runtime : String} {fs : List String}
    {acc : Names × ImportSet} (hfs : fs.Nodup) (h : FunctionsImported runtime fs acc)
    (output : Path) : OwnersImported output runtime fs [] acc where
  taken := by simp [h.taken, h.imports]
  nodup := h.taken ▸ hfs
  instances := h.instances
  bound := by
    intro name hne
    rw [h.source] at hne
    rw [h.taken]
    by_contra hn
    exact hne (if_neg hn)
  functions := fun f hf => (h.source f).trans (if_pos hf)
  owned := by simp [h.imports]
  imported := by simp

theorem OwnersImported.step_of_none {output : Path} {runtime : String} {fs : List String}
    {ms : List Method} {acc : Names × ImportSet} {m : Method}
    (h : OwnersImported output runtime fs ms acc) (hl : acc.1.import? m.owner = none) :
    ∃ next, Backend.importOwner output acc m = .ok next ∧
      OwnersImported output runtime fs (ms ++ [m]) next := by
  obtain ⟨names, set⟩ := acc
  have htaken : names.taken = fs ++ names.imports.map Prod.snd := h.taken
  let name := claim names.taken m.owner.name m.namespaceName
  have hfree : name ∉ names.taken := claim_notMem _ _ _
  have hsource : set.source? name = none := by
    by_contra hne
    exact hfree (h.bound name hne)
  have hself : (names.bindImport m.owner m.namespaceName).import? m.owner = some name :=
    Names.lookup_append_self name hl
  obtain ⟨set', hadd, hset⟩ := ImportSet.add_of_source?_eq_none (ownerSource output m) hsource
  have hold : ∀ n, n ∈ names.taken → set'.source? n = set.source? n := by
    intro n hn
    have hne : n ≠ name := fun he => hfree (he ▸ hn)
    rw [hset, if_neg hne]
  have hbefore : ∀ a ∈ ms, ∃ l, names.import? a.owner = some l ∧ l ∈ names.taken ∧
      set.source? l = some (ownerSource output a) := by
    intro a ha
    obtain ⟨l, hl, hs⟩ := h.imported a ha
    exact ⟨l, hl, h.bound l (by simp [hs]), hs⟩
  refine ⟨(names.bindImport m.owner m.namespaceName, set'), ?_, ?_⟩
  · simp only [Backend.importOwner, hl]
    have himport : (names.bindImport m.owner m.namespaceName).importOf m.owner = name := by
      simp [Names.importOf, hself]
    change (set.add _ (ownerSource output m) >>= _) = _
    rw [himport, hadd]
    rfl
  · refine ⟨?_, ?_, h.instances, fun n hn => ?_, fun f hf => ?_, fun e he => ?_, fun a ha => ?_⟩
    · simp [Names.bindImport, Names.reserve, htaken]
    · change (names.taken ++ [name]).Nodup
      rw [← List.concat_eq_append]
      exact h.nodup.concat hfree
    · change n ∈ names.taken ++ [name]
      dsimp only at hn
      rw [hset] at hn
      split_ifs at hn with hname
      · simp [hname]
      · exact List.mem_append_left _ (h.bound n hn)
    · have hmem : f ∈ names.taken := htaken ▸ List.mem_append_left _ hf
      exact (hold f hmem).trans (h.functions f hf)
    · rcases List.mem_append.mp he with he | he
      · obtain ⟨a, ha, hae⟩ := h.owned e he
        exact ⟨a, List.mem_append_left _ ha, hae⟩
      · exact ⟨m, by simp, by rw [List.mem_singleton.mp he]⟩
    · rcases List.mem_append.mp ha with ha | ha
      · obtain ⟨l, hl, htaken, hs⟩ := hbefore a ha
        exact ⟨l, Names.lookup_append_of_eq_some hl, (hold l htaken).trans hs⟩
      · obtain rfl := List.mem_singleton.mp ha
        exact ⟨name, hself, by rw [hset, if_pos rfl]⟩

/-- The owners of some methods are imported, each for its first method. Later methods may ask for
another export of the same module. -/
def FirstsImported (output : Path) (runtime : String) (fs : List String) (ms : List Method)
    (acc : Names × ImportSet) : Prop :=
  ∃ firsts ⊆ ms, OwnersImported output runtime fs firsts acc ∧
    ∀ m ∈ ms, ∃ a ∈ firsts, a.owner.same m.owner = true

/-- An owner that is imported already stays as it is, and a new one is imported. -/
theorem importOwner_step {output : Path} {runtime : String} {fs : List String} {ms : List Method}
    {acc : Names × ImportSet} (m : Method) (h : FirstsImported output runtime fs ms acc) :
    ∃ next, Backend.importOwner output acc m = .ok next ∧
      FirstsImported output runtime fs (ms ++ [m]) next := by
  obtain ⟨firsts, hsub, howners, hfirst⟩ := h
  cases hl : acc.1.import? m.owner with
  | some l =>
    refine ⟨acc, by simp only [Backend.importOwner, hl], firsts,
      List.subset_append_of_subset_left _ hsub, howners, fun x hx => ?_⟩
    rcases List.mem_append.mp hx with hx | hx
    · exact hfirst x hx
    · obtain rfl := List.mem_singleton.mp hx
      obtain ⟨p, hp, hpx⟩ := Names.lookup_eq_some hl
      obtain ⟨a, ha, rfl⟩ := howners.owned _ hp
      exact ⟨a, ha, hpx⟩
  | none =>
    obtain ⟨next, hnext, himported⟩ := howners.step_of_none hl
    refine ⟨next, hnext, firsts ++ [m], List.append_subset.mpr
      ⟨List.subset_append_of_subset_left _ hsub, List.subset_append_right _ _⟩, himported,
      fun x hx => ?_⟩
    rcases List.mem_append.mp hx with hx | hx
    · obtain ⟨a, ha, hax⟩ := hfirst x hx
      exact ⟨a, List.mem_append_left _ ha, hax⟩
    · obtain rfl := List.mem_singleton.mp hx
      exact ⟨x, by simp, Owner.same_self _⟩

/-- If methods of one owner agree on its export, each of them is served by the first import. -/
theorem FirstsImported.ownersImported {output : Path} {runtime : String} {fs : List String}
    {ms : List Method} {acc : Names × ImportSet} (hms : ExportsAgree ms)
    (h : FirstsImported output runtime fs ms acc) : OwnersImported output runtime fs ms acc := by
  obtain ⟨firsts, hsub, howners, hfirst⟩ := h
  refine ⟨howners.taken, howners.nodup, howners.instances, howners.bound, howners.functions,
    fun e he => ?_, fun m hm => ?_⟩
  · obtain ⟨a, ha, hae⟩ := howners.owned e he
    exact ⟨a, hsub ha, hae⟩
  · obtain ⟨a, ha, ham⟩ := hfirst m hm
    obtain ⟨l, hl, hsource⟩ := howners.imported a ha
    refine ⟨l, ?_, ?_⟩
    · rw [← hl]
      exact (Names.lookup_congr ham _).symm
    · rw [hsource, ownerSource_congr ham (hms a (hsub ha) m hm ham)]

structure InstancesNamed (before : Names) (ms : List Method) (n : Names) : Prop where
  taken : n.taken = before.taken ++ n.instances.map Prod.snd
  nodup : n.taken.Nodup
  imports : n.imports = before.imports
  named : ∀ m ∈ ms, ∀ o, m.ownerClass? = some o → ∃ i, n.instance? o = some i

/-- Naming the instance for a method changes nothing, or names that of a class that has none. -/
theorem bindInstance_cases (n : Names) (m : Method) :
    n.bindInstance m = n ∧ (∀ o, m.ownerClass? = some o → ∃ i, n.instance? o = some i) ∨
      ∃ o name, m.ownerClass? = some o ∧ n.instance? o = none ∧
        name = claim n.taken o.instanceName m.namespaceName ∧
        n.bindInstance m =
          { n.reserve name with instances := n.instances ++ [(o, name)] } := by
  unfold Names.bindInstance
  cases ho : m.ownerClass? with
  | none => exact .inl ⟨rfl, fun o he => by cases he⟩
  | some o =>
    cases hi : n.instance? o with
    | some i =>
      refine .inl ⟨by simp only [hi], fun p he => ⟨i, ?_⟩⟩
      obtain rfl := Option.some.inj he
      exact hi
    | none =>
      exact .inr ⟨o, _, rfl, hi, rfl, by simp only [hi]⟩

theorem bindInstance_step {before n : Names} {ms : List Method} (m : Method)
    (h : InstancesNamed before ms n) : InstancesNamed before (ms ++ [m]) (n.bindInstance m) := by
  rcases bindInstance_cases n m with ⟨he, hm⟩ | ⟨o, name, ho, hi, hname, he⟩
  · rw [he]
    refine ⟨h.taken, h.nodup, h.imports, fun a ha => ?_⟩
    rcases List.mem_append.mp ha with ha | ha
    · exact h.named a ha
    · exact List.mem_singleton.mp ha ▸ hm
  · rw [he]
    refine ⟨?_, ?_, h.imports, fun a ha p hp => ?_⟩
    · simp [Names.reserve, h.taken]
    · have hfree : name ∉ n.taken := hname ▸ claim_notMem _ _ _
      change (n.taken ++ [name]).Nodup
      rw [← List.concat_eq_append]
      exact h.nodup.concat hfree
    · rcases List.mem_append.mp ha with ha | ha
      · obtain ⟨i, hi⟩ := h.named a ha p hp
        exact ⟨i, Names.lookup_append_of_eq_some hi⟩
      · obtain rfl := List.mem_singleton.mp ha
        obtain rfl := Option.some.inj (ho ▸ hp)
        exact ⟨name, Names.lookup_append_self name hi⟩

theorem bindInstance_foldl {before : Names} (hnodup : before.taken.Nodup)
    (hnone : before.instances = []) (ms : List Method) :
    InstancesNamed before ms (ms.foldl Names.bindInstance before) := by
  have hgen : ∀ rest done n, InstancesNamed before done n →
      InstancesNamed before (done ++ rest) (rest.foldl Names.bindInstance n) := by
    intro rest
    induction rest with
    | nil =>
      intro done n h
      simpa using h
    | cons m rest ih =>
      intro done n h
      simpa using ih (done ++ [m]) (n.bindInstance m) (bindInstance_step m h)
  exact hgen ms [] before ⟨by simp [hnone], hnodup, rfl, by simp⟩

/-- The handler, as it is written, belongs to the declaration of the method: it is the imported
function, or the method of the instance of the class, bound to that instance. -/
inductive Names.Handles (n : Names) (m : Method) : String → Prop
  | function {l : String} (hclass : m.className = none) (hl : n.import? m.owner = some l) :
    Names.Handles n m l
  | bound {c i : String} (hclass : m.className = some c) (hi : n.instance? ⟨c, m.file⟩ = some i) :
    Names.Handles n m (i ++ "." ++ m.name ++ ".bind(" ++ i ++ ")")

def registrar (m : Method) : String :=
  if m.shape.isStream then "registerStream" else "register"

/-- The line registers a handler that belongs to the method, for its channel. -/
def Names.Registers (n : Names) (m : Method) (line : String) : Prop :=
  ∃ handler, n.Handles m handler ∧
    line = registrar m ++ "(" ++ Text.literal m.key ++ ", " ++ handler ++ ");"

/-- How the names of a backend module hang together. -/
structure Backend.Wired (s : Surface) (output : Path) (runtime : String) (n : Names) (b : Backend) :
    Prop where
  distinct : (b.imports.bindings.map ImportBinding.name ++ b.instances.map Instance.name).Nodup
  /-- The functions that registrations call are those of the runtime. -/
  functions : ∀ m ∈ s.methods,
    b.imports.source? (registrar m) = some ⟨runtime, .named (registrar m)⟩
  /-- The class of a method, or its function, is imported from its file, by name unless it is the
  default export. -/
  imported : ∀ m ∈ s.methods, ∃ l, n.import? m.owner = some l ∧
    b.imports.source? l = some ⟨(ModuleRef.file m.file).specifier output,
      if m.exported = .default then .default else .named (m.className.getD m.name)⟩
  /-- Different owners have different local names, and different classes different instances. -/
  import_apart : ∀ {p q l}, n.import? p = some l → n.import? q = some l → p.same q = true
  instance_apart : ∀ {p q i}, n.instance? p = some i → n.instance? q = some i → p.same q = true
  /-- Each class has one instance, made from the import of the class. -/
  created : ∀ m ∈ s.methods, ∀ o, m.ownerClass? = some o → ∃ i c, n.instance? o = some i ∧
    n.import? o = some c ∧ b.instances.count ⟨i, c⟩ = 1
  creates : ∀ x ∈ b.instances, ∃ m ∈ s.methods, ∃ o, m.ownerClass? = some o ∧
    n.instance? o = some x.name ∧ n.import? o = some x.className
  statements : b.imports.Partition b.imports.statements
  /-- What is written: the import statements, a constant for each instance, and for each method one
  registration of its own handler, in order. -/
  written : ∃ registrations, List.Forall₂ n.Registers s.methods registrations ∧
    b.text = fileText [b.imports.statements.map ImportStatement.text,
      b.instances.map (fun x => "const " ++ x.name ++ " = new " ++ x.className ++ "();"),
      registrations]

theorem importedName_eq_ite (m : Method) : Backend.importedName m =
    if m.exported = .default then .default else .named (m.className.getD m.name) := by
  unfold Backend.importedName
  cases m.exported <;> rfl

theorem owner_of_ownerClass? {m : Method} {o : Owner} (h : m.ownerClass? = some o) :
    o = m.owner := by
  obtain ⟨c, hc, rfl⟩ := Option.map_eq_some_iff.mp h
  simp [Method.owner, Method.binding, hc]

/-- The names of a module come from the imports of all owners and then the instances. -/
theorem exists_bindings (s : Surface) (output : Path) (runtime : String) :
    ∃ before n imports, Backend.bindings s output runtime = .ok (n, imports) ∧
      FirstsImported output runtime (Backend.runtimeNames s.methods) s.methods (before, imports) ∧
      InstancesNamed before s.methods n := by
  obtain ⟨start, hstart, hfunctions⟩ := importRuntime_foldlM runtime output.text s.methods
  have hbegin : FirstsImported output runtime (Backend.runtimeNames s.methods) [] start :=
    ⟨[], List.nil_subset _, hfunctions.ownersImported (runtimeNames_nodup s.methods) output,
      by simp⟩
  obtain ⟨⟨before, imports⟩, hout, hfirsts⟩ := foldlM_ok hbegin fun _ m _ _ _ h => importOwner_step m h
  have hinstances : InstancesNamed before s.methods (s.methods.foldl Names.bindInstance before) := by
    obtain ⟨firsts, -, howners, -⟩ := hfirsts
    exact bindInstance_foldl howners.nodup howners.instances s.methods
  refine ⟨before, s.methods.foldl Names.bindInstance before, imports, ?_, hfirsts, hinstances⟩
  simp only [Backend.bindings, hstart]
  change (s.methods.foldlM (Backend.importOwner output) start >>= _) = _
  rw [hout]
  rfl

theorem bindings_eq_ok {s : Surface} (hs : ExportsAgree s.methods) (output : Path)
    (runtime : String) :
    ∃ before n imports, Backend.bindings s output runtime = .ok (n, imports) ∧
      OwnersImported output runtime (Backend.runtimeNames s.methods) s.methods (before, imports) ∧
      InstancesNamed before s.methods n := by
  obtain ⟨before, n, imports, hbindings, hfirsts, hinstances⟩ := exists_bindings s output runtime
  exact ⟨before, n, imports, hbindings, hfirsts.ownersImported hs, hinstances⟩

section Module
variable {s : Surface} {output : Path} {runtime : String} {before n : Names} {imports : ImportSet}
variable
  (howners : OwnersImported output runtime (Backend.runtimeNames s.methods) s.methods
    (before, imports))
  (hinstances : InstancesNamed before s.methods n)
include howners hinstances

theorem import?_of_mem {m : Method} (hm : m ∈ s.methods) :
    ∃ l, n.import? m.owner = some l ∧ imports.source? l = some (ownerSource output m) := by
  obtain ⟨l, hl, hsource⟩ := howners.imported m hm
  refine ⟨l, ?_, hsource⟩
  rw [Names.import?, hinstances.imports]
  exact hl

theorem same_of_import?_eq {p q : Owner} {l : String} (hp : n.import? p = some l)
    (hq : n.import? q = some l) : p.same q = true := by
  refine Names.same_of_lookup_eq ?_ hp hq
  rw [hinstances.imports]
  exact (List.nodup_append.mp (howners.taken ▸ howners.nodup)).2.1

omit howners in
theorem same_of_instance?_eq {p q : Owner} {i : String} (hp : n.instance? p = some i)
    (hq : n.instance? q = some i) : p.same q = true :=
  Names.same_of_lookup_eq (List.nodup_append.mp (hinstances.taken ▸ hinstances.nodup)).2.1 hp hq

theorem created_of_mem {o : Owner} (ho : o ∈ s.instances) :
    n.instance? o = some (n.instanceOf o) ∧ n.import? o = some (n.importOf o) := by
  obtain ⟨m, hm, hmo⟩ := Surface.exists_method_of_mem_instances ho
  obtain ⟨i, hi⟩ := hinstances.named m hm o hmo
  obtain ⟨l, hl, -⟩ := import?_of_mem howners hinstances hm
  rw [← owner_of_ownerClass? hmo] at hl
  exact ⟨by simp [Names.instanceOf, hi], by simp [Names.importOf, hl]⟩

theorem instanceNames_nodup : (s.instances.map n.instanceOf).Nodup := by
  refine List.pairwise_map.mpr (s.instances_pairwise.imp_of_mem ?_)
  intro a b ha hb hab he
  have ha' := (created_of_mem howners hinstances ha).1
  have hb' := (created_of_mem howners hinstances hb).1
  exact hab (same_of_instance?_eq hinstances ha' (he ▸ hb'))

theorem topLevel_nodup :
    (imports.bindings.map ImportBinding.name ++ s.instances.map n.instanceOf).Nodup := by
  refine List.nodup_append.mpr
    ⟨imports.names_nodup, instanceNames_nodup howners hinstances, fun x hx y hy he => ?_⟩
  have hbefore : x ∈ before.taken :=
    howners.bound x fun hnone => ImportSet.source?_eq_none_iff.mp hnone hx
  obtain ⟨o, ho, rfl⟩ := List.mem_map.mp hy
  have hafter : n.instanceOf o ∈ n.instances.map Prod.snd := by
    obtain ⟨p, hp, -⟩ := Names.lookup_eq_some (created_of_mem howners hinstances ho).1
    exact List.mem_map.mpr ⟨_, hp, rfl⟩
  exact (List.nodup_append.mp (hinstances.taken ▸ hinstances.nodup)).2.2 x hbefore _ hafter he

theorem handles_handler {m : Method} (hm : m ∈ s.methods) :
    n.Handles m (Backend.handler n m).text := by
  unfold Backend.handler
  cases hc : m.className with
  | none =>
    obtain ⟨l, hl, -⟩ := import?_of_mem howners hinstances hm
    simp only [Names.importOf, hl, Option.getD_some]
    exact .function hc hl
  | some c =>
    have hclass : m.ownerClass? = some ⟨c, m.file⟩ := by simp [Method.ownerClass?, hc]
    obtain ⟨i, hi⟩ := hinstances.named m hm _ hclass
    rw [← owner_of_ownerClass? hclass]
    simp only [Names.instanceOf, hi, Option.getD_some]
    exact .bound hc hi

omit hinstances in
theorem source?_registrar {m : Method} (hm : m ∈ s.methods) :
    imports.source? (registrar m) = some ⟨runtime, .named (registrar m)⟩ := by
  refine howners.functions _ ?_
  unfold registrar Backend.runtimeNames
  cases hstream : m.shape.isStream with
  | false =>
    have hany : s.methods.any (!·.shape.isStream) = true :=
      List.any_eq_true.mpr ⟨m, hm, by simp [hstream]⟩
    rw [if_pos hany]
    exact List.mem_append_left _ (List.mem_singleton_self _)
  | true =>
    have hany : s.methods.any (·.shape.isStream) = true := List.any_eq_true.mpr ⟨m, hm, hstream⟩
    rw [if_pos hany]
    exact List.mem_append_right _ (List.mem_singleton_self _)

theorem registers_text {m : Method} (hm : m ∈ s.methods) :
    n.Registers m (Registration.text ⟨m.shape.isStream, m.key, Backend.handler n m⟩) := by
  refine ⟨_, handles_handler howners hinstances hm, ?_⟩
  unfold registrar
  cases m.shape.isStream <;> rfl

end Module

/-- A backend module can be written for every surface whose owners agree on their exports, wherever
it goes, and it is wired: no name is bound twice, each class has one instance, and each handler
belongs to the declaration of its method, and this is what its text says. -/
theorem backend_wiring {s : Surface} (hs : ExportsAgree s.methods) (output : Path)
    (runtime : String) :
    ∃ n b, Backend.bindings s output runtime = .ok (n, b.imports) ∧
      Backend.ofSurface s output runtime = .ok b ∧ Backend.Wired s output runtime n b := by
  obtain ⟨before, n, imports, hbindings, howners, hinstances⟩ := bindings_eq_ok hs output runtime
  let b : Backend :=
    { imports
      instances := s.instances.map fun o => ⟨n.instanceOf o, n.importOf o⟩
      registrations := s.methods.map fun m => ⟨m.shape.isStream, m.key, Backend.handler n m⟩ }
  have hnames : b.instances.map Instance.name = s.instances.map n.instanceOf := by
    simp [b, Function.comp_def]
  refine ⟨n, b, hbindings, ?_, ?_⟩
  · simp only [Backend.ofSurface, hbindings]
    rfl
  · refine ⟨?_, fun m hm => source?_registrar howners hm, fun m hm => ?_,
      same_of_import?_eq howners hinstances, same_of_instance?_eq hinstances,
      fun m hm o ho => ?_, fun x hx => ?_, imports.partition_statements, _, ?_, b.text_eq⟩
    · rw [hnames]
      exact topLevel_nodup howners hinstances
    · rw [← importedName_eq_ite]
      exact import?_of_mem howners hinstances hm
    · obtain ⟨p, hp, hop⟩ := Surface.exists_mem_instances hm ho
      obtain ⟨hi, hl⟩ := created_of_mem howners hinstances hp
      refine ⟨_, _, (Names.lookup_congr hop _).trans hi, (Names.lookup_congr hop _).trans hl, ?_⟩
      have hnodup : b.instances.Nodup :=
        .of_map Instance.name (hnames ▸ instanceNames_nodup howners hinstances)
      exact List.count_eq_one_of_mem hnodup (List.mem_map.mpr ⟨p, hp, rfl⟩)
    · obtain ⟨o, ho, rfl⟩ := List.mem_map.mp hx
      obtain ⟨m, hm, hmo⟩ := Surface.exists_method_of_mem_instances ho
      obtain ⟨hi, hl⟩ := created_of_mem howners hinstances ho
      exact ⟨m, hm, o, hmo, hi, hl⟩
    · refine List.forall₂_map_right_iff.mpr (List.forall₂_map_right_iff.mpr ?_)
      exact List.forall₂_same.mpr fun m hm => registers_text howners hinstances hm

/-- Classes and functions of two files that share their names, and one whose name is that of a
runtime function. -/
def clashingSurface : Surface where
  methods :=
    let a : Path := ⟨"/work/src/a.ts"⟩
    let b : Path := ⟨"/work/src/b.ts"⟩
    [⟨"api", "load", none, [], .asyncValue "void", a, 1, .named, []⟩,
      ⟨"api", "register", none, [], .value "void", b, 4, .default, []⟩,
      ⟨"one", "list", some "Store", [], .asyncStream "string", a, 7, .named, []⟩,
      ⟨"one", "load", none, [], .asyncValue "void", b, 9, .named, []⟩,
      ⟨"two", "clear", some "Store", [], .value "void", b, 12, .default, []⟩,
      ⟨"two", "list", some "Store", [], .asyncStream "string", b, 15, .default, []⟩]
  ordered := by decide +kernel

theorem clashing_backend_wiring :
    ExportsAgree clashingSurface.methods ∧
      ∃ n b, Backend.ofSurface clashingSurface ⟨"/work/src/main/bridge.ts"⟩ "run/backend" = .ok b ∧
        Backend.Wired clashingSurface ⟨"/work/src/main/bridge.ts"⟩ "run/backend" n b := by
  have hs : ExportsAgree clashingSurface.methods := by
    unfold ExportsAgree
    decide +kernel
  obtain ⟨n, b, -, hb, hwired⟩ := backend_wiring hs ⟨"/work/src/main/bridge.ts"⟩ "run/backend"
  exact ⟨hs, n, b, hb, hwired⟩

end CallBridge.Generated
