import CallBridge.Proofs.Order
import CallBridge.Proofs.Surface.Owners

/-! # Surfaces from lists of methods

A list of methods can be made a surface exactly if no two of them have one place and no namespace
has two classes. The order of the list does not matter: it decides neither the surface nor, if no
place is taken twice, the failure. In a surface that was made, a namespace with instance methods has
one owner, and the owners are listed once each, in the order of the first namespaces they own.
-/
namespace CallBridge

def Owner.Owns (o : Owner) (ms : List Method) (name : String) : Prop :=
  ∃ m ∈ ms, m.namespaceName = name ∧ ∃ p, m.ownerClass? = some p ∧ o.same p = true

/-- The instance methods of a namespace belong to one class. -/
def OneOwner (ms : List Method) (name : String) : Prop :=
  ∀ a ∈ ms, ∀ b ∈ ms, a.namespaceName = name → b.namespaceName = name →
    ∀ o p, a.ownerClass? = some o → b.ownerClass? = some p → o.same p = true

/-- Of the namespaces with several classes the first one, and all its classes in order. -/
structure FirstAmbiguity (ms : List Method) (name : String) (os : List Owner) : Prop where
  ambiguous : ¬ OneOwner ms name
  first : ∀ earlier, earlier < name → OneOwner ms earlier
  increasing : os.Pairwise fun a b => a.compare b = .lt
  owners : ∀ o ∈ os, ∃ m ∈ ms, m.namespaceName = name ∧ m.ownerClass? = some o
  complete : ∀ o : Owner, o.Owns ms name → ∃ p ∈ os, o.same p = true

section Perm
variable {ms ms' : List Method} {o : Owner} {name : String} {os : List Owner}

theorem Owner.Owns.perm (h : ms.Perm ms') (ho : o.Owns ms name) : o.Owns ms' name := by
  obtain ⟨m, hm, hname⟩ := ho
  exact ⟨m, h.mem_iff.mp hm, hname⟩

theorem OneOwner.perm (h : ms.Perm ms') (hone : OneOwner ms name) : OneOwner ms' name :=
  fun a ha b hb => hone a (h.mem_iff.mpr ha) b (h.mem_iff.mpr hb)

theorem FirstAmbiguity.perm (h : ms.Perm ms') (ha : FirstAmbiguity ms name os) :
    FirstAmbiguity ms' name os where
  ambiguous hone := ha.ambiguous (hone.perm h.symm)
  first earlier hearlier := (ha.first earlier hearlier).perm h
  increasing := ha.increasing
  owners o ho := by
    obtain ⟨m, hm, hname⟩ := ha.owners o ho
    exact ⟨m, h.mem_iff.mp hm, hname⟩
  complete o ho := ha.complete o (ho.perm h.symm)

end Perm

namespace Surface
variable {s t : Surface} {g : Group} {o : Owner} {name : String}

theorem exists_method_of_mem_owners (hg : g ∈ s.groups) (ho : o ∈ g.owners) :
    ∃ m ∈ s.methods, m.namespaceName = g.name ∧ m.ownerClass? = some o := by
  obtain ⟨m, hm, hmo⟩ := Group.exists_method_of_mem_owners ho
  obtain ⟨hm, hname⟩ := (mem_methods_iff hg).mp hm
  exact ⟨m, hm, hname, hmo⟩

theorem owns_iff (hg : g ∈ s.groups) :
    o.Owns s.methods g.name ↔ ∃ p ∈ g.owners, o.same p = true := by
  constructor
  · rintro ⟨m, hm, hname, p, hp, hop⟩
    have hmg : m ∈ g.methods := (mem_methods_iff hg).mpr ⟨hm, hname⟩
    obtain ⟨q, hq, hpq⟩ := Group.exists_mem_owners hmg hp
    exact ⟨q, hq, Owner.same_trans hop hpq⟩
  · rintro ⟨p, hp, hop⟩
    obtain ⟨m, hm, hname, hmp⟩ := exists_method_of_mem_owners hg hp
    exact ⟨m, hm, hname, p, hmp, hop⟩

theorem exists_group_of_owns (ho : o.Owns s.methods name) : ∃ g ∈ s.groups, g.name = name := by
  obtain ⟨m, hm, rfl, -⟩ := ho
  obtain ⟨g, hg, hname, -⟩ := exists_group hm
  exact ⟨g, hg, hname⟩

theorem length_owners_le_one_iff (hg : g ∈ s.groups) :
    g.owners.length ≤ 1 ↔ OneOwner s.methods g.name := by
  constructor
  · intro hlength a ha b hb haname hbname o p ho hp
    obtain ⟨o', ho', hoo'⟩ := (owns_iff hg).mp ⟨a, ha, haname, o, ho, o.same_self⟩
    obtain ⟨p', hp', hpp'⟩ := (owns_iff hg).mp ⟨b, hb, hbname, p, hp, p.same_self⟩
    obtain ⟨q, hq⟩ := List.length_eq_one_iff.mp
      (Nat.le_antisymm hlength (List.length_pos_of_mem ho'))
    rw [hq, List.mem_singleton] at ho' hp'
    subst ho' hp'
    exact Owner.same_trans hoo' (Owner.same_symm hpp')
  · intro hone
    have hincreasing : g.owners.Pairwise fun a b => a.compare b = .lt :=
      Owner.sortDistinct_increasing _
    match howners : g.owners with
    | [] => exact Nat.zero_le 1
    | [a] => exact Nat.le_refl 1
    | a :: b :: rest =>
      -- The first two owners are told apart, but they are the same.
      obtain ⟨x, hx, hxname, hxa⟩ := exists_method_of_mem_owners hg (o := a) (by simp [howners])
      obtain ⟨y, hy, hyname, hyb⟩ := exists_method_of_mem_owners hg (o := b) (by simp [howners])
      have hsame := Owner.same_iff_compare.mp (hone x hx y hy hxname hyname a b hxa hyb)
      rw [howners] at hincreasing
      rw [(List.pairwise_cons.mp hincreasing).1 b List.mem_cons_self] at hsame
      cases hsame

theorem needsInstance_group_iff : g.needsInstance = true ↔ g.owners ≠ [] := by
  unfold Group.needsInstance
  rw [List.any_eq_true]
  constructor
  · rintro ⟨m, hm, hclass⟩
    obtain ⟨c, hc⟩ := Option.isSome_iff_exists.mp hclass
    have howner : m.ownerClass? = some ⟨c, m.file⟩ := by rw [Method.ownerClass?, hc]; rfl
    obtain ⟨p, hp, -⟩ := Group.exists_mem_owners hm howner
    exact List.ne_nil_of_mem hp
  · intro hne
    obtain ⟨o, ho⟩ := List.exists_mem_of_ne_nil _ hne
    obtain ⟨m, hm, howner⟩ := Group.exists_method_of_mem_owners ho
    obtain ⟨c, hc, -⟩ := Option.map_eq_some_iff.mp howner
    exact ⟨m, hm, by rw [hc]; rfl⟩

theorem owner?_group_iff : g.owner? = some o ↔ g.owners = [o] := by
  unfold Group.owner?
  split
  · next p hp => rw [hp, Option.some.injEq, List.singleton_inj]
  · next hne =>
    constructor
    · exact nofun
    · exact fun h => absurd h (hne o)

theorem oneOwner_of_groups (h : ∀ g ∈ s.groups, g.name = name → g.owners.length ≤ 1) :
    OneOwner s.methods name := by
  intro a ha b hb haname
  obtain ⟨g, hg, hname, -⟩ := exists_group ha
  have hone := (length_owners_le_one_iff hg).mp (h g hg (hname.trans haname))
  rw [hname, haname] at hone
  exact hone a ha b hb haname

/-- A surface is refused for the first namespace with several classes, if there is one. -/
theorem validate_cases (s : Surface) :
    (s.validate = .ok () ∧ ∀ name, OneOwner s.methods name) ∨
      ∃ name os, s.validate = .error (.ambiguousOwner name os) ∧ FirstAmbiguity s.methods name os := by
  unfold validate
  split
  · next g hfind =>
    obtain ⟨hlength, before, after, hgroups, hbefore⟩ := List.find?_eq_some_iff_append.mp hfind
    have hg : g ∈ s.groups := List.mem_of_find?_eq_some hfind
    refine .inr ⟨g.name, g.owners, rfl, ⟨fun hone => ?_, fun earlier hearlier => ?_,
      Owner.sortDistinct_increasing _, fun o ho => exists_method_of_mem_owners hg ho,
      fun o ho => (owns_iff hg).mp ho⟩⟩
    · have hle := (length_owners_le_one_iff hg).mpr hone
      simp only [decide_eq_true_eq] at hlength
      omega
    · refine oneOwner_of_groups fun h hh hname => ?_
      have hordered : (s.groups.map Group.name).Pairwise (· < ·) := runs_ordered s.ordered
      rw [hgroups, List.map_append, List.map_cons] at hordered
      rw [hgroups] at hh
      rcases List.mem_append.mp hh with hh | hh
      · simpa using hbefore h hh
      · -- Nothing from the group on has a smaller name.
        exfalso
        rcases List.mem_cons.mp hh with rfl | hh
        · exact String.lt_irrefl _ (hname ▸ hearlier)
        · have hlater := (List.pairwise_cons.mp (List.pairwise_append.mp hordered).2.1).1 h.name
            (List.mem_map_of_mem hh)
          rw [hname] at hlater
          exact String.lt_irrefl _ (String.lt_trans hlater hearlier)
  · next hfind =>
    exact .inl ⟨rfl, fun name => oneOwner_of_groups fun g hg _ => by
      simpa using List.find?_eq_none.mp hfind g hg⟩

theorem owner?_eq_some_iff :
    s.owner? name = some o ↔ ∃ g ∈ s.groups, g.name = name ∧ g.owners = [o] := by
  simp only [owner?, Option.bind_eq_some_iff, group?_eq_some_iff, owner?_group_iff, and_assoc]

theorem needsInstance_iff :
    s.needsInstance name = true ↔ ∃ g ∈ s.groups, g.name = name ∧ g.needsInstance = true := by
  rw [needsInstance, Option.any_eq_true]
  simp only [group?_eq_some_iff, and_assoc]

theorem needsInstance_iff_exists_method : s.needsInstance name = true ↔
    ∃ m ∈ s.methods, m.namespaceName = name ∧ m.className.isSome = true := by
  rw [needsInstance_iff]
  constructor
  · rintro ⟨g, hg, rfl, hneeds⟩
    obtain ⟨m, hm, hclass⟩ := List.any_eq_true.mp hneeds
    obtain ⟨hm, hname⟩ := (mem_methods_iff hg).mp hm
    exact ⟨m, hm, hname, hclass⟩
  · rintro ⟨m, hm, rfl, hclass⟩
    obtain ⟨g, hg, hname, hmg⟩ := exists_group hm
    exact ⟨g, hg, hname, List.any_eq_true.mpr ⟨m, hmg, hclass⟩⟩

theorem exists_owner?_iff (hone : OneOwner s.methods name) :
    (∃ o, s.owner? name = some o) ↔ s.needsInstance name = true := by
  simp only [owner?_eq_some_iff, needsInstance_iff]
  constructor
  · rintro ⟨o, g, hg, hname, howners⟩
    refine ⟨g, hg, hname, needsInstance_group_iff.mpr ?_⟩
    rw [howners]
    exact List.cons_ne_nil o []
  · rintro ⟨g, hg, rfl, hneeds⟩
    have hlength := (length_owners_le_one_iff hg).mpr hone
    have hpos := List.length_pos_iff.mpr (needsInstance_group_iff.mp hneeds)
    obtain ⟨o, ho⟩ := List.length_eq_one_iff.mp (Nat.le_antisymm hlength hpos)
    exact ⟨o, g, hg, rfl, ho⟩

theorem owns_iff_same (h : s.owner? name = some o) (p : Owner) :
    p.Owns s.methods name ↔ p.same o = true := by
  obtain ⟨g, hg, rfl, howners⟩ := owner?_eq_some_iff.mp h
  rw [owns_iff hg, howners]
  simp only [List.mem_singleton, exists_eq_left]

theorem countP_instances {m : Method} (hm : m ∈ s.methods) (ho : m.ownerClass? = some o) :
    s.instances.countP o.same = 1 := by
  obtain ⟨p, hp, hop⟩ := exists_mem_instances hm ho
  refine countP_same_eq_one ?_ ?_ s.instances_pairwise hp hop
  · exact Owner.same_symm
  · exact Owner.same_trans

def ownedNamespaces (s : Surface) : List (String × Owner) :=
  s.groups.flatMap fun g => g.owners.map fun o => (g.name, o)

theorem map_snd_ownedNamespaces (s : Surface) :
    s.ownedNamespaces.map Prod.snd = s.groups.flatMap Group.owners := by
  simp only [ownedNamespaces, List.map_flatMap, List.map_map, Function.comp_def, List.map_id']

theorem mem_ownedNamespaces_iff :
    (name, o) ∈ s.ownedNamespaces ↔ ∃ g ∈ s.groups, g.name = name ∧ o ∈ g.owners := by
  rw [ownedNamespaces, List.mem_flatMap]
  constructor
  · rintro ⟨g, hg, hmem⟩
    obtain ⟨p, hp, he⟩ := List.mem_map.mp hmem
    cases he
    exact ⟨g, hg, rfl, hp⟩
  · rintro ⟨g, hg, rfl, ho⟩
    exact ⟨g, hg, List.mem_map_of_mem ho⟩

theorem ownedNamespaces_increasing (hone : ∀ name, OneOwner s.methods name) :
    s.ownedNamespaces.Pairwise fun x y => x.1 < y.1 := by
  refine List.pairwise_flatMap.mpr ⟨fun g hg => ?_, ?_⟩
  · have hlength := (length_owners_le_one_iff hg).mpr (hone g.name)
    cases howners : g.owners with
    | nil => exact .nil
    | cons o os =>
      rw [howners, List.length_cons] at hlength
      obtain rfl := List.length_eq_zero_iff.mp (Nat.le_zero.mp (Nat.le_of_succ_le_succ hlength))
      exact List.pairwise_singleton _ _
  · refine (List.pairwise_map.mp (runs_ordered s.ordered)).imp fun {g h} hlt => ?_
    simp only [List.mem_map]
    rintro x ⟨o, -, rfl⟩ y ⟨p, -, rfl⟩
    exact hlt

/-- The first namespace of an owner stands in front of all namespaces of the owners behind it. -/
theorem instances_ordered (hone : ∀ name, OneOwner s.methods name) :
    s.instances.Pairwise fun a b => ∃ first, a.Owns s.methods first ∧
      ∀ name, b.Owns s.methods name → first < name := by
  have hfirsts := firstsDistinct_ordered Owner.same_self
    (fun hab hbc => Owner.same_trans hab hbc) (s.groups.flatMap Group.owners)
  refine hfirsts.imp fun {a b} hab => ?_
  obtain ⟨before, after, hflat, hbefore⟩ := hab
  rw [← map_snd_ownedNamespaces] at hflat
  obtain ⟨front, rest, hentries, rfl, hrest⟩ := List.map_eq_append_iff.mp hflat
  obtain ⟨⟨first, a'⟩, back, rfl, rfl, rfl⟩ := List.map_eq_cons_iff.mp hrest
  have hincreasing := ownedNamespaces_increasing hone
  have ha : (first, a') ∈ s.ownedNamespaces := by simp [hentries]
  obtain ⟨g, hg, rfl, hag⟩ := mem_ownedNamespaces_iff.mp ha
  refine ⟨g.name, (owns_iff hg).mpr ⟨a', hag, a'.same_self⟩, fun name hb => ?_⟩
  obtain ⟨h, hh, rfl⟩ := exists_group_of_owns hb
  obtain ⟨p, hp, hbp⟩ := (owns_iff hh).mp hb
  have hentry : (h.name, p) ∈ s.ownedNamespaces := mem_ownedNamespaces_iff.mpr ⟨h, hh, rfl, hp⟩
  -- An entry of the later owner is neither in front of the first entry of the earlier one nor it.
  rw [hentries] at hentry hincreasing
  have hlater : (h.name, p) ∈ back := by
    rcases List.mem_append.mp hentry with hfront | hentry
    · exact absurd hbp (hbefore p (List.mem_append_left _ (List.mem_map_of_mem hfront)))
    · rcases List.mem_cons.mp hentry with he | hback
      · refine absurd hbp (hbefore p (List.mem_append_right _ ?_))
        rw [(Prod.mk.inj he).2]
        exact List.mem_singleton_self _
      · exact hback
  exact (List.pairwise_cons.mp (List.pairwise_append.mp hincreasing).2.1).1 _ hlater

/-- What a surface says of the classes of its methods. -/
structure OwnedAs (s : Surface) (ms : List Method) : Prop where
  needsInstance_iff : ∀ name, s.needsInstance name = true ↔
    ∃ m ∈ ms, m.namespaceName = name ∧ m.className.isSome = true
  owner?_iff : ∀ name, (∃ o, s.owner? name = some o) ↔ s.needsInstance name = true
  owns_iff : ∀ name o, s.owner? name = some o → ∀ p : Owner, p.Owns ms name ↔ p.same o = true
  instances : ∀ o ∈ s.instances, ∃ m ∈ ms, m.ownerClass? = some o
  once : ∀ m ∈ ms, ∀ o, m.ownerClass? = some o → s.instances.countP o.same = 1
  ordered : s.instances.Pairwise fun a b => ∃ first, a.Owns ms first ∧
    ∀ name, b.Owns ms name → first < name

theorem ownedAs_methods (hone : ∀ name, OneOwner s.methods name) : s.OwnedAs s.methods where
  needsInstance_iff _ := needsInstance_iff_exists_method
  owner?_iff name := exists_owner?_iff (hone name)
  owns_iff _ _ h := owns_iff_same h
  instances _ ho := exists_method_of_mem_instances ho
  once _ hm _ ho := countP_instances hm ho
  ordered := instances_ordered hone

theorem OwnedAs.perm {ms ms' : List Method} (h : ms.Perm ms') (hs : s.OwnedAs ms) :
    s.OwnedAs ms' where
  needsInstance_iff name := by
    rw [hs.needsInstance_iff]
    simp only [h.mem_iff]
  owner?_iff := hs.owner?_iff
  owns_iff name o ho p := ⟨fun hp => (hs.owns_iff name o ho p).mp (hp.perm h.symm),
    fun hp => ((hs.owns_iff name o ho p).mpr hp).perm h⟩
  instances o ho := by
    obtain ⟨m, hm, hmo⟩ := hs.instances o ho
    exact ⟨m, h.mem_iff.mp hm, hmo⟩
  once m hm := hs.once m (h.mem_iff.mpr hm)
  ordered := by
    refine hs.ordered.imp ?_
    rintro a b ⟨first, ha, hb⟩
    exact ⟨first, ha.perm h, fun name hname => hb name (hname.perm h.symm)⟩

theorem insertAll_perm {ms : List Method} (h : s.insertAll ms = .ok t) :
    t.methods.Perm (ms ++ s.methods) := by
  induction ms generalizing s with
  | nil =>
    obtain rfl := pure_eq_ok_iff.mp h
    exact .refl _
  | cons m ms ih =>
    rw [insertAll, List.foldlM_cons] at h
    rcases insert_cases s m with ⟨x, -, -, hinsert⟩ | ⟨-, u, hinsert, hmethods⟩
    · rw [hinsert] at h
      cases h
    · rw [hinsert] at h
      have hplaced : u.methods.Perm (m :: s.methods) := hmethods ▸ place_perm m s.methods
      exact (ih h).trans ((hplaced.append_left _).trans List.perm_middle)

theorem exists_insertAll_iff {ms : List Method} :
    (∃ t, s.insertAll ms = .ok t) ↔ ((ms ++ s.methods).map Method.place).Nodup := by
  constructor
  · rintro ⟨t, ht⟩
    exact ((insertAll_perm ht).map Method.place).nodup_iff.mp t.places_nodup
  · intro h
    induction ms generalizing s with
    | nil => exact ⟨s, rfl⟩
    | cons m ms ih =>
      have hcons := List.nodup_cons.mp h
      rw [insertAll, List.foldlM_cons]
      rcases insert_cases s m with ⟨x, hx, hplace, -⟩ | ⟨-, u, hinsert, hmethods⟩
      · refine absurd (List.mem_map.mpr ⟨x, ?_, hplace⟩) hcons.1
        exact List.mem_append_right ms hx
      · rw [hinsert]
        refine ih (s := u) ?_
        have hplaced : u.methods.Perm (m :: s.methods) := hmethods ▸ place_perm m s.methods
        have hperm := (hplaced.append_left ms).trans List.perm_middle
        exact (hperm.map Method.place).nodup_iff.mpr h

/-- The result of building a surface, and that for the same methods in another order. -/
inductive SameOutcome (ms : List Method) : Except Failure Surface → Except Failure Surface → Prop
  | made (s : Surface) : SameOutcome ms (.ok s) (.ok s)
  | duplicate (first second first' second' : Method) :
    SameOutcome ms (.error (.duplicateMethod first second)) (.error (.duplicateMethod first' second'))
  | ambiguous {name : String} {os : List Owner} (h : FirstAmbiguity ms name os) :
    SameOutcome ms (.error (.ambiguousOwner name os)) (.error (.ambiguousOwner name os))

section Building
variable {ms ms' : List Method}

theorem ofMethods_of_nodup (h : (ms.map Method.place).Nodup) :
    ∃ s : Surface, s.methods.Perm ms ∧ ofMethods ms = (do s.validate; return s) := by
  have hall : ((ms ++ empty.methods).map Method.place).Nodup := by
    rwa [show empty.methods = [] from rfl, List.append_nil]
  obtain ⟨s, hs⟩ := exists_insertAll_iff.mpr hall
  refine ⟨s, by simpa [empty] using insertAll_perm hs, ?_⟩
  rw [ofMethods, hs]
  rfl

theorem ofMethods_of_not_nodup (h : ¬ (ms.map Method.place).Nodup) :
    ∃ first second, ofMethods ms = .error (.duplicateMethod first second) := by
  cases hall : empty.insertAll ms with
  | ok s =>
    have hnodup := exists_insertAll_iff.mp ⟨s, hall⟩
    rw [show empty.methods = [] from rfl, List.append_nil] at hnodup
    exact absurd hnodup h
  | error failure =>
    obtain ⟨first, second, -, rfl⟩ := insertAll_eq_error hall
    exact ⟨first, second, by rw [ofMethods, hall]; rfl⟩

/-- Methods that take different places are made a surface or refused for the classes of a
namespace. -/
theorem ofMethods_cases (h : (ms.map Method.place).Nodup) :
    (∃ s, ofMethods ms = .ok s ∧ s.methods.Perm ms ∧ ∀ name, OneOwner ms name) ∨
      ∃ name os, ofMethods ms = .error (.ambiguousOwner name os) ∧ FirstAmbiguity ms name os := by
  obtain ⟨s, hperm, hs⟩ := ofMethods_of_nodup h
  rw [hs]
  rcases s.validate_cases with ⟨hvalidate, hone⟩ | ⟨name, os, hvalidate, hfirst⟩
  · refine .inl ⟨s, ?_, hperm, fun name => (hone name).perm hperm⟩
    rw [hvalidate]
    rfl
  · refine .inr ⟨name, os, ?_, hfirst.perm hperm⟩
    rw [hvalidate]
    rfl

theorem exists_ofMethods_iff :
    (∃ s, ofMethods ms = .ok s) ↔ (ms.map Method.place).Nodup ∧ ∀ name, OneOwner ms name := by
  by_cases h : (ms.map Method.place).Nodup
  · rcases ofMethods_cases h with ⟨s, hs, -, hone⟩ | ⟨name, os, hs, hfirst⟩
    · exact ⟨fun _ => ⟨h, hone⟩, fun _ => ⟨s, hs⟩⟩
    · rw [hs]
      exact ⟨nofun, fun hone => absurd (hone.2 name) hfirst.ambiguous⟩
  · obtain ⟨first, second, hs⟩ := ofMethods_of_not_nodup h
    rw [hs]
    exact ⟨nofun, fun hnodup => absurd hnodup.1 h⟩

theorem ofMethods_perm (h : ms.Perm ms') : SameOutcome ms (ofMethods ms) (ofMethods ms') := by
  by_cases hnodup : (ms.map Method.place).Nodup
  · obtain ⟨s, hperm, hs⟩ := ofMethods_of_nodup hnodup
    obtain ⟨s', hperm', hs'⟩ := ofMethods_of_nodup ((h.map Method.place).nodup_iff.mp hnodup)
    -- Both orders lead to one surface, so they are validated alike.
    obtain rfl : s = s' := eq_of_mem_iff fun m => ((hperm.trans h).trans hperm'.symm).mem_iff
    have hsame : ofMethods ms' = ofMethods ms := hs'.trans hs.symm
    rw [hsame]
    rcases ofMethods_cases hnodup with ⟨t, ht, -, -⟩ | ⟨name, os, ht, hfirst⟩
    · rw [ht]
      exact .made t
    · rw [ht]
      exact .ambiguous hfirst
  · obtain ⟨first, second, hs⟩ := ofMethods_of_not_nodup hnodup
    have hnodup' : ¬ (ms'.map Method.place).Nodup :=
      fun hms' => hnodup ((h.map Method.place).nodup_iff.mpr hms')
    obtain ⟨first', second', hs'⟩ := ofMethods_of_not_nodup hnodup'
    rw [hs, hs']
    exact .duplicate first second first' second'

end Building

/-- A list of methods is made a surface exactly if no place is taken twice and no namespace has two
classes. Every order of it comes to the same, and the surface answers for the classes of the
methods. -/
theorem ofMethods_exact (ms : List Method) :
    ((∃ s, ofMethods ms = .ok s) ↔
      (ms.map Method.place).Nodup ∧ ∀ name, OneOwner ms name) ∧
    (∀ ms', ms.Perm ms' → SameOutcome ms (ofMethods ms) (ofMethods ms')) ∧
    ∀ s, ofMethods ms = .ok s → s.methods.Perm ms ∧ s.OwnedAs ms := by
  refine ⟨exists_ofMethods_iff, fun ms' h => ofMethods_perm h, fun s hs => ?_⟩
  obtain ⟨hnodup, hone⟩ := exists_ofMethods_iff.mp ⟨s, hs⟩
  have hperm : s.methods.Perm ms := by
    rcases ofMethods_cases hnodup with ⟨t, ht, hperm, -⟩ | ⟨name, os, ht, -⟩
    · rw [hs] at ht
      cases ht
      exact hperm
    · rw [hs] at ht
      cases ht
  have hmethods : s.OwnedAs s.methods := ownedAs_methods fun name => (hone name).perm hperm.symm
  exact ⟨hperm, hmethods.perm hperm⟩

/-- Methods of one class in two namespaces, its file written in two ways, and a function beside
them. -/
def sharedClass : List Method :=
  [⟨"user", "load", some "Store", [], .value "void", ⟨"/work/store.ts"⟩, 3, .named, []⟩,
    ⟨"app", "stop", none, [], .value "void", ⟨"/work/app.ts"⟩, 2, .named, []⟩,
    ⟨"app", "start", some "Store", [], .value "void", ⟨"/work//store.ts"⟩, 7, .named, []⟩]

theorem sharedClass_made : ∃ s, ofMethods sharedClass = .ok s ∧
    ofMethods sharedClass.reverse = .ok s ∧ s.OwnedAs sharedClass ∧ s.needsInstance "app" = true := by
  obtain ⟨hmade, hperm, hanswers⟩ := ofMethods_exact sharedClass
  have hclass : ∀ a ∈ sharedClass, ∀ b ∈ sharedClass, ∀ o ∈ a.ownerClass?, ∀ p ∈ b.ownerClass?,
      o.same p = true := by decide +kernel
  obtain ⟨s, hs⟩ := hmade.mpr
    ⟨by decide, fun name a ha b hb _ _ o p ho hp => hclass a ha b hb o ho p hp⟩
  obtain ⟨-, howned⟩ := hanswers s hs
  refine ⟨s, hs, ?_, howned, (howned.needsInstance_iff "app").mpr (by decide)⟩
  have hreverse := hperm sharedClass.reverse (List.reverse_perm sharedClass).symm
  rw [hs] at hreverse
  generalize ofMethods sharedClass.reverse = outcome at hreverse ⊢
  cases hreverse
  rfl

end Surface

end CallBridge
