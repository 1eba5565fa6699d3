import CallBridge.Surface
import CallBridge.Proofs.Text.Written
import Mathlib.Data.List.Nodup

/-! # Groups and insertions of a call surface

The groups of a surface hold its methods in order, each under its own namespace. A surface that is
built by insertions holds one method for each place that was asked for, and the channel keys of
methods in camel case namespaces tell their places apart.
-/
namespace CallBridge

def Method.place (m : Method) : String × String :=
  (m.namespaceName, m.name)

theorem Method.sameKey_iff {a b : Method} : a.SameKey b ↔ a.place = b.place :=
  Prod.mk_inj.symm

theorem Method.Before.place_ne {a b : Method} (h : a.Before b) : a.place ≠ b.place := by
  intro he
  obtain ⟨hns, hname⟩ := Prod.mk_inj.mp he
  rcases h with h | h
  · exact String.lt_irrefl _ (hns ▸ h)
  · exact String.lt_irrefl _ (hname ▸ h.2)

theorem Method.key_inj {a b : Method} (ha : Text.isCamelCase a.namespaceName = true)
    (hb : Text.isCamelCase b.namespaceName = true) (h : a.key = b.key) : a.place = b.place := by
  have hl := congrArg String.toList h
  simp only [Method.key, String.toList_append, List.append_assoc] at hl
  change a.namespaceName.toList ++ ':' :: a.name.toList =
    b.namespaceName.toList ++ ':' :: b.name.toList at hl
  obtain ⟨hns, hname⟩ := Text.cut_inj (Text.colon_notMem_of_isCamelCase ha)
    (Text.colon_notMem_of_isCamelCase hb) hl
  exact Prod.mk_inj.mpr ⟨String.toList_inj.mp hns, String.toList_inj.mp hname⟩

namespace Surface

theorem places_nodup (s : Surface) : (s.methods.map Method.place).Nodup :=
  List.pairwise_map.mpr (s.ordered.imp fun h => h.place_ne)

theorem runs_flatMap_methods (ms : List Method) : (runs ms).flatMap Group.methods = ms := by
  induction ms with
  | nil => rfl
  | cons m ms ih =>
    unfold runs
    cases hr : runs ms with
    | nil => simp_all
    | cons g gs =>
      dsimp only
      rw [hr] at ih
      split_ifs with hg
      · simpa using ih
      · simpa using ih

theorem name_of_mem_runs {ms : List Method} {g : Group} (hg : g ∈ runs ms) {m : Method}
    (hm : m ∈ g.methods) : m.namespaceName = g.name := by
  induction ms generalizing g m with
  | nil => simp [runs] at hg
  | cons x xs ih =>
    unfold runs at hg
    cases hr : runs xs with
    | nil =>
      simp only [hr, List.mem_singleton] at hg
      subst hg
      rw [List.mem_singleton.mp hm]
    | cons h hs =>
      simp only [hr] at hg
      rw [hr] at ih
      split_ifs at hg with hx
      · rcases List.mem_cons.mp hg with rfl | hg
        · rcases List.mem_cons.mp hm with rfl | hm
          · exact hx.symm
          · exact ih List.mem_cons_self hm
        · exact ih (List.mem_cons_of_mem _ hg) hm
      · rcases List.mem_cons.mp hg with rfl | hg
        · rw [List.mem_singleton.mp hm]
        · exact ih hg hm

theorem exists_group {s : Surface} {m : Method} (hm : m ∈ s.methods) :
    ∃ g ∈ s.groups, g.name = m.namespaceName ∧ m ∈ g.methods := by
  have hmem : m ∈ s.groups.flatMap Group.methods := by
    rw [groups, runs_flatMap_methods]
    exact hm
  obtain ⟨g, hg, hmg⟩ := List.mem_flatMap.mp hmem
  exact ⟨g, hg, (name_of_mem_runs hg hmg).symm, hmg⟩

/-- A walk through the groups that says of each method what it is and where it stands is a walk
through the methods. -/
theorem groups_flatMap_map {β : Type} (s : Surface) (f : String → Method → β) :
    (s.groups.flatMap fun g => g.methods.map (f g.name)) =
      s.methods.map fun m => f m.namespaceName m := by
  have hgroup : ∀ g ∈ s.groups, g.methods.map (f g.name) =
      g.methods.map fun m => f m.namespaceName m := by
    intro g hg
    exact List.map_congr_left fun m hm => by rw [name_of_mem_runs hg hm]
  calc (s.groups.flatMap fun g => g.methods.map (f g.name))
      = s.groups.flatMap fun g => g.methods.map fun m => f m.namespaceName m :=
        List.flatMap_congr hgroup
    _ = (s.groups.flatMap Group.methods).map fun m => f m.namespaceName m :=
        (List.map_flatMap ..).symm
    _ = s.methods.map fun m => f m.namespaceName m := by
        rw [groups, runs_flatMap_methods]

theorem exists_mem_of_mem_runs {ms : List Method} {g : Group} (hg : g ∈ runs ms) :
    ∃ m ∈ ms, m.namespaceName = g.name := by
  induction ms generalizing g with
  | nil => simp [runs] at hg
  | cons x xs ih =>
    unfold runs at hg
    cases hr : runs xs with
    | nil =>
      simp only [hr, List.mem_singleton] at hg
      exact ⟨x, List.mem_cons_self, by rw [hg]⟩
    | cons h hs =>
      have hrest : ∀ g ∈ h :: hs, ∃ m ∈ x :: xs, m.namespaceName = g.name := by
        intro g hg
        obtain ⟨m, hm, hname⟩ := ih (hr ▸ hg)
        exact ⟨m, List.mem_cons_of_mem _ hm, hname⟩
      simp only [hr] at hg
      split_ifs at hg with hx
      · rcases List.mem_cons.mp hg with rfl | hg
        · exact ⟨x, List.mem_cons_self, hx.symm⟩
        · exact hrest g (List.mem_cons_of_mem _ hg)
      · rcases List.mem_cons.mp hg with rfl | hg
        · exact ⟨x, List.mem_cons_self, rfl⟩
        · exact hrest g hg

theorem runs_ordered {ms : List Method} (h : ms.Pairwise Method.Before) :
    ((runs ms).map Group.name).Pairwise (· < ·) := by
  induction ms with
  | nil => exact .nil
  | cons m ms ih =>
    obtain ⟨hm, hms⟩ := List.pairwise_cons.mp h
    have hrest := ih hms
    unfold runs
    cases hr : runs ms with
    | nil => exact List.pairwise_singleton _ _
    | cons g gs =>
      rw [hr] at hrest
      dsimp only
      split_ifs with hg
      · exact hrest
      · -- The first group is behind the method, and so are those behind the first group.
        have hfirst : m.namespaceName < g.name := by
          obtain ⟨x, hx, hname⟩ := exists_mem_of_mem_runs (hr ▸ List.mem_cons_self : g ∈ runs ms)
          rcases hm x hx with hlt | ⟨heq, -⟩
          · exact hname ▸ hlt
          · exact absurd (heq.trans hname).symm hg
        refine List.pairwise_cons.mpr ⟨fun name hname => ?_, hrest⟩
        rcases List.mem_cons.mp hname with rfl | hname
        · exact hfirst
        · exact String.lt_trans hfirst ((List.pairwise_cons.mp hrest).1 name hname)

theorem mem_namespaces_iff {s : Surface} {name : String} :
    name ∈ s.namespaces ↔ ∃ m ∈ s.methods, m.namespaceName = name := by
  constructor
  · intro hname
    obtain ⟨g, hg, rfl⟩ := List.mem_map.mp hname
    exact exists_mem_of_mem_runs hg
  · rintro ⟨m, hm, rfl⟩
    obtain ⟨g, hg, hname, -⟩ := exists_group hm
    exact List.mem_map.mpr ⟨g, hg, hname⟩

theorem namespaces_nodup (s : Surface) : s.namespaces.Nodup := by
  refine (runs_ordered s.ordered).imp ?_
  rintro a b h rfl
  exact String.lt_irrefl _ h

variable {s t : Surface} {g : Group} {m : Method} {name : String}

theorem of_group?_eq_some (h : s.group? name = some g) : g ∈ s.groups ∧ g.name = name := by
  unfold group? at h
  exact ⟨List.mem_of_find?_eq_some h, by simpa using List.find?_some h⟩

theorem group?_eq_some_iff : s.group? name = some g ↔ g ∈ s.groups ∧ g.name = name := by
  constructor
  · exact of_group?_eq_some
  · rintro ⟨hg, rfl⟩
    cases hfind : s.group? g.name with
    | none =>
      unfold group? at hfind
      exact absurd (beq_self_eq_true g.name) (List.find?_eq_none.mp hfind g hg)
    | some g' =>
      obtain ⟨hg', hname⟩ := of_group?_eq_some hfind
      rw [List.inj_on_of_nodup_map s.namespaces_nodup hg' hg hname]

theorem mem_methods_iff (hg : g ∈ s.groups) :
    m ∈ g.methods ↔ m ∈ s.methods ∧ m.namespaceName = g.name := by
  constructor
  · intro hm
    refine ⟨?_, name_of_mem_runs hg hm⟩
    rw [← runs_flatMap_methods s.methods]
    exact List.mem_flatMap.mpr ⟨g, hg, hm⟩
  · rintro ⟨hm, hname⟩
    obtain ⟨g', hg', hname', hmg'⟩ := exists_group hm
    rwa [List.inj_on_of_nodup_map s.namespaces_nodup hg hg' (hname.symm.trans hname'.symm)]

theorem methods_ne_nil (hg : g ∈ s.groups) : g.methods ≠ [] := by
  obtain ⟨m, hm, hname⟩ := exists_mem_of_mem_runs hg
  exact List.ne_nil_of_mem ((mem_methods_iff hg).mpr ⟨hm, hname⟩)

theorem methodsOf_name (hg : g ∈ s.groups) : s.methodsOf g.name = g.methods := by
  rw [methodsOf, group?_eq_some_iff.mpr ⟨hg, rfl⟩]
  rfl

theorem namespaces_flatMap_methodsOf (s : Surface) : s.namespaces.flatMap s.methodsOf = s.methods := by
  calc s.namespaces.flatMap s.methodsOf
      = s.groups.flatMap fun g => s.methodsOf g.name := List.flatMap_map ..
    _ = s.groups.flatMap Group.methods := List.flatMap_congr fun g hg => methodsOf_name hg
    _ = s.methods := runs_flatMap_methods s.methods

theorem isEmpty_iff (s : Surface) : s.isEmpty = true ↔ s.size = 0 := by
  rw [isEmpty, List.isEmpty_iff, size, List.length_eq_zero_iff]
  constructor
  · intro h
    rw [← runs_flatMap_methods s.methods]
    exact congrArg (List.flatMap Group.methods) h
  · intro h
    rw [groups, h]
    rfl

theorem place_perm (m : Method) (ms : List Method) : (place m ms).Perm (m :: ms) := by
  induction ms with
  | nil => exact .refl _
  | cons x xs ih =>
    unfold place
    split_ifs
    · exact .refl _
    · exact (ih.cons x).trans (.swap m x xs)

theorem eq_of_mem_iff (h : ∀ m, m ∈ s.methods ↔ m ∈ t.methods) : s = t := by
  have hperm : s.methods.Perm t.methods :=
    (List.perm_ext_iff_of_nodup (.of_map _ s.places_nodup) (.of_map _ t.places_nodup)).mpr h
  have hmethods : s.methods = t.methods := by
    refine hperm.eq_of_pairwise (fun a b _ _ hab hba => ?_) s.ordered t.ordered
    exact absurd rfl (hab.trans hba).place_ne
  cases s
  cases t
  cases hmethods
  rfl

/-- Add methods one after the other, and go on behind those that cannot be added. -/
def insertEach (s : Surface) (ms : List Method) : Surface :=
  ms.foldl (fun s m => (s.insert m).toOption.getD s) s

theorem insert_cases (s : Surface) (m : Method) :
    (∃ x ∈ s.methods, x.place = m.place ∧ s.insert m = .error (.duplicateMethod x m)) ∨
      (∀ x ∈ s.methods, x.place ≠ m.place) ∧
        ∃ s', s.insert m = .ok s' ∧ s'.methods = Surface.place m s.methods := by
  unfold insert
  split
  · next x hx =>
    refine .inl ⟨x, List.mem_of_find?_eq_some hx, ?_, rfl⟩
    exact Method.sameKey_iff.mp (by simpa using List.find?_some hx)
  · next hx =>
    refine .inr ⟨fun x hm => ?_, _, rfl, rfl⟩
    have := List.find?_eq_none.mp hx x hm
    simpa [Method.sameKey_iff] using this

theorem insertAll_eq_error {ms : List Method} {failure : Failure}
    (h : s.insertAll ms = .error failure) :
    ∃ first, ∃ second ∈ ms, failure = .duplicateMethod first second := by
  induction ms generalizing s with
  | nil => cases h
  | cons m ms ih =>
    rw [insertAll, List.foldlM_cons] at h
    rcases insert_cases s m with ⟨first, -, -, hinsert⟩ | ⟨-, t, hinsert, -⟩
    · rw [hinsert] at h
      cases h
      exact ⟨first, m, List.mem_cons_self, rfl⟩
    · rw [hinsert] at h
      obtain ⟨first, second, hsecond, hfailure⟩ := ih h
      exact ⟨first, second, List.mem_cons_of_mem _ hsecond, hfailure⟩

theorem insertAll_append (s : Surface) (ms ms' : List Method) :
    s.insertAll (ms ++ ms') = s.insertAll ms >>= fun t => t.insertAll ms' :=
  List.foldlM_append

/-- What one insertion does to the methods, whether it fails or not. -/
theorem mem_insert_getD {s : Surface} {m x : Method} :
    x ∈ ((s.insert m).toOption.getD s).methods → x = m ∨ x ∈ s.methods := by
  rcases insert_cases s m with ⟨y, -, -, he⟩ | ⟨-, s', he, hs⟩
  · rw [he]
    exact .inr
  · rw [he]
    simp only [Except.toOption, Option.getD_some, hs, mem_place]
    exact id

theorem mem_places_insert_getD {s : Surface} {m : Method} {p : String × String} :
    p ∈ ((s.insert m).toOption.getD s).methods.map Method.place ↔
      p = m.place ∨ p ∈ s.methods.map Method.place := by
  rcases insert_cases s m with ⟨y, hy, hp, he⟩ | ⟨-, s', he, hs⟩
  · rw [he]
    simp only [Except.toOption, Option.getD_none]
    constructor
    · exact .inr
    · rintro (rfl | h)
      · exact List.mem_map.mpr ⟨y, hy, hp⟩
      · exact h
  · rw [he]
    simp only [Except.toOption, Option.getD_some, hs, List.mem_map, mem_place]
    constructor
    · rintro ⟨x, rfl | hx, rfl⟩
      · exact .inl rfl
      · exact .inr ⟨x, hx, rfl⟩
    · rintro (rfl | ⟨x, hx, rfl⟩)
      · exact ⟨m, .inl rfl, rfl⟩
      · exact ⟨x, .inr hx, rfl⟩

theorem mem_insertEach {s : Surface} {ms : List Method} {x : Method}
    (hx : x ∈ (s.insertEach ms).methods) : x ∈ s.methods ∨ x ∈ ms := by
  induction ms generalizing s with
  | nil => exact .inl hx
  | cons m ms ih =>
    rcases ih hx with h | h
    · rcases mem_insert_getD h with rfl | h
      · exact .inr List.mem_cons_self
      · exact .inl h
    · exact .inr (List.mem_cons_of_mem _ h)

/-- Every place that was asked for is taken in the end, and no other one. -/
theorem mem_places_insertEach {s : Surface} {ms : List Method} {p : String × String} :
    p ∈ (s.insertEach ms).methods.map Method.place ↔
      p ∈ s.methods.map Method.place ∨ p ∈ ms.map Method.place := by
  induction ms generalizing s with
  | nil => simp [insertEach]
  | cons m ms ih =>
    have h := ih (s := (s.insert m).toOption.getD s)
    rw [mem_places_insert_getD] at h
    rw [List.map_cons, List.mem_cons]
    exact h.trans (by tauto)

end Surface

end CallBridge
