import CallBridge.Proofs.Generated.Forwarding
import CallBridge.Proofs.Generated.ImportHistory
import CallBridge.Proofs.Generated.TypeImports
import CallBridge.Proofs.Generated.Wiring

/-! # Conflicts between mentioned types

The type declaration module imports every type that the methods of a surface mention. It cannot be
made if and only if two mentions of one name are not the same import from where the module stands.
The other two modules do not depend on it.
-/
namespace CallBridge

/-- Both references have one local name, and from `output` they are different imports. -/
def TypeRef.ClashesWith (output : Path) (r r' : TypeRef) : Prop :=
  r.name = r'.name ∧
    (r.imported ≠ r'.imported ∨ r.module.specifier output ≠ r'.module.specifier output)

namespace Generated

theorem typeSource_ne_iff {output : Path} {r r' : TypeRef} :
    typeSource output r ≠ typeSource output r' ↔
      r.imported ≠ r'.imported ∨ r.module.specifier output ≠ r'.module.specifier output := by
  rw [Ne, typeSource, typeSource, ImportSource.mk.injEq]
  tauto

namespace Types

variable {s : Surface} {output : Path} {t : Types}

def typeBinding (output : Path) (r : TypeRef) : ImportBinding :=
  ⟨r.name, typeSource output r⟩

def typeBindings (s : Surface) (output : Path) : List ImportBinding :=
  (s.methods.flatMap Method.typeRefs).map (typeBinding output)

theorem mem_typeBindings_iff {b : ImportBinding} : b ∈ typeBindings s output ↔
    ∃ m ∈ s.methods, ∃ r ∈ m.typeRefs, typeBinding output r = b := by
  simp only [typeBindings, List.mem_map, List.mem_flatMap]
  constructor
  · rintro ⟨r, ⟨m, hm, hr⟩, hb⟩
    exact ⟨m, hm, r, hr, hb⟩
  · rintro ⟨m, hm, r, hr, hb⟩
    exact ⟨r, ⟨m, hm, hr⟩, hb⟩

theorem ofSurface_eq (s : Surface) (output : Path) :
    ofSurface s output =
      ((ImportSet.empty output.text true).addAll (typeBindings s output)).map
        fun imports => ⟨imports, s.groups.map Interface.ofGroup⟩ := by
  have hfold : (s.methods.flatMap Method.typeRefs).foldlM (importType output)
      (ImportSet.empty output.text true) =
        (ImportSet.empty output.text true).addAll (typeBindings s output) := by
    rw [ImportSet.addAll, typeBindings, List.foldlM_map]
    rfl
  rw [ofSurface, hfold]
  cases (ImportSet.empty output.text true).addAll (typeBindings s output) <;> rfl

/-- The failure names the local name of two references that clash, and what each of them imports. -/
theorem of_ofSurface_eq_error {failure : Failure} (h : ofSurface s output = .error failure) :
    ∃ m ∈ s.methods, ∃ r ∈ m.typeRefs, ∃ m' ∈ s.methods, ∃ r' ∈ m'.typeRefs,
      r.ClashesWith output r' ∧ failure =
        .importCollision r.name output.text (typeSource output r) (typeSource output r') := by
  rw [ofSurface_eq] at h
  cases hadd : (ImportSet.empty output.text true).addAll (typeBindings s output) with
  | ok imports =>
    rw [hadd] at h
    cases h
  | error failure' =>
    rw [hadd] at h
    cases h
    obtain ⟨a, ha, b, hb, hname, hdiffer, rfl⟩ := ImportSet.of_addAll_eq_error hadd
    obtain ⟨m, hm, r, hr, rfl⟩ := mem_typeBindings_iff.mp ha
    obtain ⟨m', hm', r', hr', rfl⟩ := mem_typeBindings_iff.mp hb
    refine ⟨m, hm, r, hr, m', hm', r', hr', ⟨hname, typeSource_ne_iff.mp hdiffer⟩, ?_⟩
    rw [← hname]
    rfl

end Types

end Generated

end CallBridge
