import CallBridge.Generated.Bridge
import CallBridge.Proofs.Extraction.Parameters
import CallBridge.Proofs.Generated.ImportSet
import CallBridge.Proofs.Surface.Groups

/-! # Forwarders and the runtime

The bridge imports the runtime functions that its forwarders call, under their own names. A forwarder
is a function of its own, so a parameter with the name of such a function stands in front of it. No
name that is made up for a parameter does, but one that a declaration gives may.
-/
namespace CallBridge.Generated

/-- The name of the runtime function that a forwarder calls. -/
def Forwarder.callee (w : Forwarder) : String :=
  if w.stream then iterateName else invokeName

def Forwarder.Binds (w : Forwarder) (name : String) : Prop :=
  name ∈ w.parameters.map ForwardedParameter.name

instance (w : Forwarder) (name : String) : Decidable (w.Binds name) :=
  inferInstanceAs (Decidable (name ∈ _))

namespace Bridge

theorem runtimeNames_nodup (s : Surface) : (runtimeNames s).Nodup := by
  unfold runtimeNames
  split_ifs <;> decide

theorem callee_mem_runtimeNames {s : Surface} {m : Method} (hm : m ∈ s.methods) :
    (Forwarder.ofMethod m).callee ∈ runtimeNames s := by
  unfold runtimeNames Forwarder.callee
  cases hstream : m.shape.isStream with
  | false =>
    have hany : (s.methods.any fun m => !m.shape.isStream) = true :=
      List.any_eq_true.mpr ⟨m, hm, by simp [hstream]⟩
    simp [Forwarder.ofMethod, hstream, hany]
  | true =>
    have hany : (s.methods.any fun m => m.shape.isStream) = true :=
      List.any_eq_true.mpr ⟨m, hm, hstream⟩
    simp [Forwarder.ofMethod, hstream, hany]

/-- The bridge of a surface can always be made. It imports the runtime functions that the surface
needs. -/
theorem exists_ofSurface (s : Surface) (runtime : String) :
    ∃ b, ofSurface s runtime = .ok b ∧ b.blocks = s.groups.map ExposeBlock.ofGroup ∧
      b.imports.ImportsExactly runtime (runtimeNames s) := by
  have himports : ∃ imports, (runtimeNames s).foldlM
      (fun (set : ImportSet) name => set.add name ⟨runtime, .named name⟩)
        (ImportSet.empty "bridge" false) = .ok imports ∧
      imports.ImportsExactly runtime (runtimeNames s) := by
    refine foldlM_ok (fun name => by simp) fun pre name post imports hnames h => ?_
    refine h.step fun hmem => ?_
    have hnodup := hnames ▸ runtimeNames_nodup s
    exact (List.nodup_append.mp hnodup).2.2 name hmem name List.mem_cons_self rfl
  obtain ⟨imports, hfold, hexact⟩ := himports
  refine ⟨⟨imports, s.groups.map ExposeBlock.ofGroup⟩, ?_, rfl, hexact⟩
  rw [ofSurface, hfold]
  rfl

theorem of_ofSurface {s : Surface} {runtime : String} {b : Bridge}
    (h : ofSurface s runtime = .ok b) :
    b.blocks = s.groups.map ExposeBlock.ofGroup ∧
      b.imports.ImportsExactly runtime (runtimeNames s) := by
  obtain ⟨b', hb', hbridge⟩ := exists_ofSurface s runtime
  obtain rfl : b' = b := Except.ok.inj (hb'.symm.trans h)
  exact hbridge

theorem exists_method_of_mem {s : Surface} {o : ExposeBlock} {w : Forwarder}
    (ho : o ∈ s.groups.map ExposeBlock.ofGroup) (hw : w ∈ o.forwarders) :
    ∃ m ∈ s.methods, w = Forwarder.ofMethod m := by
  obtain ⟨g, hg, rfl⟩ := List.mem_map.mp ho
  obtain ⟨m, hm, rfl⟩ := List.mem_map.mp hw
  exact ⟨m, ((Surface.mem_methods_iff hg).mp hm).1, rfl⟩

/-- The bridge imports what each forwarder calls. The forwarder of a method that was read from a
file calls that import unless a parameter of the declaration has its name: the forwarder has a
parameter of that name exactly if the declaration has one. -/
theorem callee_bound_iff (s : Surface) (runtime : String) :
    ∃ b, ofSurface s runtime = .ok b ∧ ∀ o ∈ b.blocks, ∀ w ∈ o.forwarders,
      b.imports.source? w.callee = some ⟨runtime, .named w.callee⟩ ∧
      ∃ m ∈ s.methods, w = Forwarder.ofMethod m ∧
        ∀ (f : SourceFile) (marking : Marking), m ∈ (f.extract marking).methods →
          ∃ c : Candidate, f.Records c m ∧
            (w.Binds w.callee ↔ w.callee ∈ CallBridge.Signature.declaredNames f c.function) := by
  obtain ⟨b, hb, hblocks, himports⟩ := exists_ofSurface s runtime
  refine ⟨b, hb, fun o ho w hw => ?_⟩
  obtain ⟨m, hm, rfl⟩ := exists_method_of_mem (hblocks ▸ ho) hw
  refine ⟨(himports _).trans (if_pos (callee_mem_runtimeNames hm)), m, hm, rfl, ?_⟩
  intro f marking hextract
  obtain ⟨statement, hstatement, declaration, declared, c, namespaceName, shape, hdeclaration,
    hread, -, hshape, rfl, -⟩ := f.exists_candidate hextract
  refine ⟨c, ⟨⟨statement, hstatement, declaration, declared, hdeclaration, hread⟩,
    namespaceName, shape, hshape, rfl⟩, ?_⟩
  -- A made up name begins like no runtime function.
  have hhead : ∀ w : Forwarder, w.callee.toList.head? ≠ some 'a' := by
    intro w
    unfold Forwarder.callee
    split_ifs <;> decide
  rw [← CallBridge.Signature.mem_names_iff_of_head (hhead _), Forwarder.Binds, Forwarder.ofMethod]
  simp [Candidate.toMethod, Function.comp_def]

/-- A file with a function that has a parameter named like a runtime function, and one that takes
its only parameter apart. -/
def invokingFile : SourceFile :=
  let source : Syntax.Source := ⟨("// @expose\nexport function run(invoke: T) \x7b\x7d\n" ++
    "// @expose\nexport async function* watch([x]: T) \x7b\x7d\n").toUTF8⟩
  ⟨⟨"/app/src/a.ts"⟩, source, Syntax.Dialect.plain.parse source⟩

theorem invokingFile_fault : invokingFile.faultLine? = none := by
  decide +kernel

theorem invokingFile_forwarders :
    (invokingFile.extract {}).methods.map Forwarder.ofMethod =
      [⟨"run", [⟨"invoke", false, false⟩], false, "api:run"⟩,
        ⟨"watch", [⟨"arg0", false, false⟩], true, "api:watch"⟩] := by
  decide +kernel

theorem watch_calls_runtime :
    ∃ (m : Method) (b : Bridge) (c : Candidate), m ∈ (invokingFile.extract {}).methods ∧
      ofSurface ⟨[m], List.pairwise_singleton _ m⟩ "run/bridge" = .ok b ∧
      b.blocks = [⟨m.namespaceName, [⟨"watch", [⟨"arg0", false, false⟩], true, "api:watch"⟩]⟩] ∧
      b.imports.source? "iterate" = some ⟨"run/bridge", .named "iterate"⟩ ∧
      invokingFile.Records c m ∧
      "iterate" ∉ CallBridge.Signature.declaredNames invokingFile c.function := by
  have hwatch : ⟨"watch", [⟨"arg0", false, false⟩], true, "api:watch"⟩ ∈
      (invokingFile.extract {}).methods.map Forwarder.ofMethod := by
    rw [invokingFile_forwarders]
    decide
  obtain ⟨m, hm, hw⟩ := List.mem_map.mp hwatch
  obtain ⟨b, hb, hforwarders⟩ := callee_bound_iff ⟨[m], List.pairwise_singleton _ m⟩ "run/bridge"
  have hblocks : b.blocks = [⟨m.namespaceName, [Forwarder.ofMethod m]⟩] := (of_ofSurface hb).1
  obtain ⟨himport, m', hm', -, hrecords⟩ :=
    hforwarders _ (hblocks ▸ List.mem_singleton_self _) _ (List.mem_singleton_self _)
  obtain rfl : m' = m := List.mem_singleton.mp hm'
  obtain ⟨c, hc, hbound⟩ := hrecords invokingFile {} hm
  rw [hw] at hblocks himport hbound
  exact ⟨m', b, c, hm, hb, hblocks, himport, hc, fun h => absurd (hbound.mpr h) (by decide)⟩

/-- A forwarder calls its own parameter. -/
theorem run_calls_parameter :
    invokingFile.faultLine? = none ∧ ∃ m ∈ (invokingFile.extract {}).methods,
      (Forwarder.ofMethod m).text = "run: (invoke: unknown) => invoke('api:run', invoke)" ∧
      (Forwarder.ofMethod m).Binds (Forwarder.ofMethod m).callee := by
  have hrun : ⟨"run", [⟨"invoke", false, false⟩], false, "api:run"⟩ ∈
      (invokingFile.extract {}).methods.map Forwarder.ofMethod := by
    rw [invokingFile_forwarders]
    decide
  obtain ⟨m, hm, hw⟩ := List.mem_map.mp hrun
  refine ⟨invokingFile_fault, m, hm, ?_, ?_⟩
  · rw [hw]
    decide
  · rw [hw]
    decide

end Bridge

end CallBridge.Generated
