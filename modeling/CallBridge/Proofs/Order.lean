import CallBridge.Method
import CallBridge.Proofs.Basic

/-! # Orders of paths and owners

Paths are compared step by step, and owners by their name and then by their file. Both orders are
total, and they tell apart exactly what is not the same. A list that is sorted without repetitions
increases strictly, so it depends only on which values are in the list, as long as values that are
the same are equal.
-/
namespace CallBridge

section Sorted
variable {α : Type} {cmp : α → α → Ordering} [Std.TransCmp cmp]

theorem transCmp_on {β : Type} (f : β → α) : Std.TransCmp fun a b => cmp (f a) (f b) where
  eq_swap := Std.OrientedCmp.eq_swap
  isLE_trans := Std.TransCmp.isLE_trans

theorem nodup_of_increasing {xs : List α} (h : xs.Pairwise fun a b => cmp a b = .lt) : xs.Nodup := by
  refine h.imp ?_
  rintro a b hab rfl
  have hself : cmp a a = .eq := Std.ReflCmp.compare_self
  rw [hself] at hab
  cases hab

/-- Lists that increase strictly and have the same members are equal. -/
theorem eq_of_mem_iff_of_increasing {xs ys : List α} (hxs : xs.Pairwise fun a b => cmp a b = .lt)
    (hys : ys.Pairwise fun a b => cmp a b = .lt) (h : ∀ a, a ∈ xs ↔ a ∈ ys) : xs = ys := by
  have hperm : xs.Perm ys :=
    (List.perm_ext_iff_of_nodup (nodup_of_increasing hxs) (nodup_of_increasing hys)).mpr h
  refine hperm.eq_of_pairwise (fun a b _ _ hab hba => ?_) hxs hys
  have hswap : cmp b a = (cmp a b).swap := Std.OrientedCmp.eq_swap
  rw [hswap, hab] at hba
  cases hba

variable {le same : α → α → Bool} (hle : ∀ a b, le a b = (cmp a b).isLE)
  (hsame : ∀ a b, same a b = true ↔ cmp a b = .eq)
include hsame

include hle in
theorem keepLast_increasing {x : α} {kept : List α} (hx : ∀ y ∈ kept, le x y = true)
    (h : kept.Pairwise fun a b => cmp a b = .lt) :
    (keepLast same x kept).Pairwise fun a b => cmp a b = .lt := by
  cases kept with
  | nil => exact List.pairwise_singleton _ _
  | cons y ys =>
    simp only [keepLast]
    split_ifs with hxy
    · exact h
    · have hfirst : (cmp x y).isLE = true := by
        rw [← hle]
        exact hx y List.mem_cons_self
      have hlt : cmp x y = .lt :=
        (Ordering.isLE_iff_eq_lt_or_eq_eq.mp hfirst).resolve_right fun he => hxy ((hsame x y).mpr he)
      refine List.pairwise_cons.mpr ⟨fun z hz => ?_, h⟩
      rcases List.mem_cons.mp hz with rfl | hz
      · exact hlt
      · exact Std.TransCmp.lt_trans hlt ((List.pairwise_cons.mp h).1 z hz)

include hle in
omit hsame in
theorem pairwise_mergeSort (xs : List α) :
    (xs.mergeSort le).Pairwise fun a b => le a b = true := by
  refine List.pairwise_mergeSort (fun a b c hab hbc => ?_) (fun a b => ?_) xs
  · rw [hle] at hab hbc ⊢
    exact Std.TransCmp.isLE_trans hab hbc
  · have hswap : cmp b a = (cmp a b).swap := Std.OrientedCmp.eq_swap
    rw [hle, hle, hswap, Bool.or_eq_true]
    cases cmp a b <;> simp

include hle in
omit hsame in
/-- Values of which no two are the same increase strictly when they are sorted. -/
theorem mergeSort_increasing {xs : List α} (h : xs.Pairwise fun a b => cmp a b ≠ .eq) :
    (xs.mergeSort le).Pairwise fun a b => cmp a b = .lt := by
  have hsymm : ∀ {a b : α}, cmp a b ≠ .eq → cmp b a ≠ .eq :=
    fun hab hba => hab (Std.OrientedCmp.eq_comm.mp hba)
  have happart := ((List.mergeSort_perm xs le).pairwise_iff hsymm).mpr h
  refine ((pairwise_mergeSort hle xs).and happart).imp fun {a b} hab => ?_
  rw [hle] at hab
  exact (Ordering.isLE_iff_eq_lt_or_eq_eq.mp hab.1).resolve_right hab.2

include hle in
theorem sortedDistinct_increasing (xs : List α) :
    (sortedDistinct le same xs).Pairwise fun a b => cmp a b = .lt := by
  have hsorted := pairwise_mergeSort hle xs
  unfold sortedDistinct
  generalize xs.mergeSort le = ys at hsorted
  induction ys with
  | nil => exact .nil
  | cons y ys ih =>
    obtain ⟨hy, hys⟩ := List.pairwise_cons.mp hsorted
    exact keepLast_increasing hle hsame (fun z hz => hy z (mem_of_mem_foldr_keepLast hz)) (ih hys)

theorem mem_sortedDistinct_iff {xs : List α}
    (honce : ∀ a ∈ xs, ∀ b ∈ xs, same a b = true → a = b) {a : α} :
    a ∈ sortedDistinct le same xs ↔ a ∈ xs := by
  constructor
  · exact mem_of_mem_sortedDistinct
  · intro ha
    have hrefl : ∀ x, same x x = true := fun x => (hsame x x).mpr Std.ReflCmp.compare_self
    have htrans : ∀ {x y z}, same x y = true → same y z = true → same x z = true := by
      intro x y z hxy hyz
      rw [hsame] at hxy hyz ⊢
      exact Std.TransCmp.eq_trans hxy hyz
    obtain ⟨b, hb, hab⟩ : ∃ b ∈ sortedDistinct le same xs, same a b = true :=
      exists_mem_sortedDistinct hrefl htrans ha
    rw [honce a ha b (mem_of_mem_sortedDistinct hb) hab]
    exact hb

end Sorted

namespace Component

theorem compare_eq_compareLex : compare = compareLex (compareOn rank) (compareOn text) := by
  funext a b
  cases a <;> cases b <;> rfl

instance : Std.TransCmp compare := by
  rw [compare_eq_compareLex]
  infer_instance

instance : Std.LawfulEqCmp compare where
  eq_of_compare {a b} h := by
    cases a <;> cases b <;> simp_all [compare, rank]

theorem compareAll_eq_compareLex : compareAll = List.compareLex compare := by
  funext as bs
  induction as generalizing bs with
  | nil => cases bs <;> rfl
  | cons a as ih =>
    cases bs with
    | nil => rfl
    | cons b bs =>
      rw [compareAll, ih, List.compareLex_cons_cons]

instance : Std.TransCmp compareAll := by
  rw [compareAll_eq_compareLex]
  infer_instance

instance : Std.LawfulEqCmp compareAll := by
  rw [compareAll_eq_compareLex]
  infer_instance

end Component

namespace Path

instance : Std.TransCmp Path.compare :=
  transCmp_on components

theorem same_iff_compare {p q : Path} : p.same q = true ↔ p.compare q = .eq := by
  have hcompare : Component.compareAll p.components q.components = .eq ↔
      p.components = q.components := Std.LawfulEqCmp.compare_eq_iff_eq
  rw [same, beq_iff_eq]
  exact hcompare.symm

theorem sortDistinct_increasing (ps : List Path) :
    (sortDistinct ps).Pairwise fun p q => p.compare q = .lt :=
  sortedDistinct_increasing (fun _ _ => rfl) (fun _ _ => same_iff_compare) ps

end Path

namespace Owner

instance : Std.TransCmp fun a b : Owner => a.file.compare b.file :=
  transCmp_on file

instance : Std.TransCmp Owner.compare :=
  inferInstanceAs (Std.TransCmp (compareLex (compareOn name) fun a b => a.file.compare b.file))

theorem same_iff_compare {a b : Owner} : a.same b = true ↔ a.compare b = .eq := by
  rw [same, Bool.and_eq_true, beq_iff_eq, Path.same_iff_compare, compare, Ordering.then_eq_eq,
    Std.LawfulEqOrd.compare_eq_iff_eq]

theorem sortDistinct_increasing (os : List Owner) :
    (sortDistinct os).Pairwise fun a b => a.compare b = .lt :=
  sortedDistinct_increasing (fun _ _ => rfl) (fun _ _ => same_iff_compare) os

end Owner

end CallBridge
