import CallBridge.Proofs.Basic
import CallBridge.Proofs.Surface.Groups

/-! # Owner classes of a surface

Owners are told apart by their name and the components of their file. The owner classes of a surface
are listed once each.
-/
namespace CallBridge

namespace Owner

def identity (o : Owner) : String × List Component :=
  (o.name, o.file.components)

theorem same_iff {a b : Owner} : a.same b = true ↔ a.identity = b.identity := by
  simp [same, Path.same, identity]

@[simp]
theorem same_self (o : Owner) : o.same o = true :=
  same_iff.mpr rfl

theorem same_symm {a b : Owner} (h : a.same b = true) : b.same a = true :=
  same_iff.mpr (same_iff.mp h).symm

theorem same_trans {a b c : Owner} (hab : a.same b = true) (hbc : b.same c = true) :
    a.same c = true :=
  same_iff.mpr ((same_iff.mp hab).trans (same_iff.mp hbc))

end Owner

theorem mem_of_mem_sortDistinct {os : List Owner} {o : Owner} (h : o ∈ Owner.sortDistinct os) :
    o ∈ os :=
  mem_of_mem_sortedDistinct h

theorem exists_mem_sortDistinct {os : List Owner} {o : Owner} (h : o ∈ os) :
    ∃ p ∈ Owner.sortDistinct os, o.same p = true :=
  exists_mem_sortedDistinct Owner.same_self (fun hab hbc => Owner.same_trans hab hbc) h

theorem Group.exists_method_of_mem_owners {g : Group} {o : Owner} (h : o ∈ g.owners) :
    ∃ m ∈ g.methods, m.ownerClass? = some o :=
  List.mem_filterMap.mp (mem_of_mem_sortDistinct h)

theorem Group.exists_mem_owners {g : Group} {m : Method} {o : Owner} (hm : m ∈ g.methods)
    (ho : m.ownerClass? = some o) : ∃ p ∈ g.owners, o.same p = true :=
  exists_mem_sortDistinct (List.mem_filterMap.mpr ⟨m, hm, ho⟩)

namespace Surface

theorem exists_method_of_mem_instances {s : Surface} {o : Owner} (h : o ∈ s.instances) :
    ∃ m ∈ s.methods, m.ownerClass? = some o := by
  obtain ⟨g, hg, ho⟩ := List.mem_flatMap.mp (mem_of_mem_firstsDistinct h)
  obtain ⟨m, hm, hmo⟩ := Group.exists_method_of_mem_owners ho
  exact ⟨m, ((mem_methods_iff hg).mp hm).1, hmo⟩

theorem exists_mem_instances {s : Surface} {m : Method} {o : Owner} (hm : m ∈ s.methods)
    (ho : m.ownerClass? = some o) : ∃ p ∈ s.instances, o.same p = true := by
  obtain ⟨g, hg, -, hmg⟩ := exists_group hm
  obtain ⟨p, hp, hop⟩ := Group.exists_mem_owners hmg ho
  have hflat : p ∈ s.groups.flatMap Group.owners := List.mem_flatMap.mpr ⟨g, hg, hp⟩
  obtain ⟨q, hq, hpq⟩ := exists_mem_firstsDistinct Owner.same_self
    (fun hab hbc => Owner.same_trans hab hbc) hflat
  exact ⟨q, hq, Owner.same_trans hop hpq⟩

theorem instances_pairwise (s : Surface) :
    s.instances.Pairwise fun a b => ¬ a.same b = true :=
  pairwise_firstsDistinct (fun h => Owner.same_symm h) _

end Surface

end CallBridge
