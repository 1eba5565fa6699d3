import CallBridge.Proofs.Surface.Groups
import Mathlib.Tactic.Common

/-! # Insertions into a surface, one after the other

Whatever is inserted, and whatever fails of it, a surface lists the methods that were accepted, each
once and in order, and its groups, names, sizes and look-ups agree on them. An insertion fails
exactly on a method whose place is taken, and then nothing changes.

The same is done by a catalogue that keeps the methods of each namespace apart, under their names,
and that sets a namespace up before it looks whether the method can be added.
-/
namespace CallBridge

namespace Surface

/-- The methods that are accepted when methods are added one after the other. -/
def accepted (s : Surface) : List Method → List Method
  | [] => []
  | m :: ms =>
    match s.insert m with
    | .ok t => m :: t.accepted ms
    | .error _ => s.accepted ms

variable {s : Surface} {m : Method}

theorem insert_eq_error_iff {failure : Failure} : s.insert m = .error failure ↔
    ∃ x ∈ s.methods, x.SameKey m ∧ failure = .duplicateMethod x m := by
  rcases insert_cases s m with ⟨x, hx, hplace, hinsert⟩ | ⟨hfree, t, hinsert, -⟩
  · rw [hinsert]
    constructor
    · intro h
      cases h
      exact ⟨x, hx, Method.sameKey_iff.mpr hplace, rfl⟩
    · rintro ⟨y, hy, hkey, rfl⟩
      have hxy : x = y := List.inj_on_of_nodup_map s.places_nodup hx hy
        (hplace.trans (Method.sameKey_iff.mp hkey).symm)
      rw [hxy]
  · rw [hinsert]
    constructor
    · exact nofun
    · rintro ⟨x, hx, hkey, -⟩
      exact absurd (Method.sameKey_iff.mp hkey) (hfree x hx)

theorem insertEach_perm (s : Surface) (ms : List Method) :
    (s.insertEach ms).methods.Perm (s.accepted ms ++ s.methods) := by
  induction ms generalizing s with
  | nil => exact .refl _
  | cons m ms ih =>
    unfold accepted
    rcases insert_cases s m with ⟨x, -, -, hinsert⟩ | ⟨-, t, hinsert, hmethods⟩
    · have hstep : s.insertEach (m :: ms) = s.insertEach ms := by
        rw [insertEach, List.foldl_cons, hinsert]
        rfl
      rw [hstep, hinsert]
      exact ih s
    · have hstep : s.insertEach (m :: ms) = t.insertEach ms := by
        rw [insertEach, List.foldl_cons, hinsert]
        rfl
      have hplaced : t.methods.Perm (m :: s.methods) := hmethods ▸ place_perm m s.methods
      rw [hstep, hinsert]
      exact (ih t).trans ((hplaced.append_left _).trans List.perm_middle)

/-- What a surface shows of the methods that were accepted into it. -/
structure Holds (s : Surface) (accepted : List Method) : Prop where
  perm : s.methods.Perm accepted
  places : (accepted.map Method.place).Nodup
  increasing : s.methods.Pairwise Method.Before
  group : ∀ g ∈ s.groups, s.group? g.name = some g ∧ g.methods ≠ [] ∧
    ∀ m ∈ g.methods, m.namespaceName = g.name
  method : ∀ m ∈ s.methods, ∃ g, s.group? m.namespaceName = some g ∧ m ∈ g.methods
  groups : s.groups.flatMap Group.methods = s.methods
  namespaces : s.namespaces.flatMap s.methodsOf = s.methods
  lengths : (s.groups.map fun g => g.methods.length).sum = s.size
  size : s.size = accepted.length
  isEmpty : s.isEmpty = true ↔ s.size = 0

theorem holds_of_perm {ms : List Method} (h : s.methods.Perm ms) : s.Holds ms where
  perm := h
  places := (h.map Method.place).nodup_iff.mp s.places_nodup
  increasing := s.ordered
  group g hg := ⟨group?_eq_some_iff.mpr ⟨hg, rfl⟩, methods_ne_nil hg,
    fun _ hm => name_of_mem_runs hg hm⟩
  method m hm := by
    obtain ⟨g, hg, hname, hmg⟩ := exists_group hm
    exact ⟨g, group?_eq_some_iff.mpr ⟨hg, hname⟩, hmg⟩
  groups := runs_flatMap_methods s.methods
  namespaces := s.namespaces_flatMap_methodsOf
  lengths := by
    rw [← List.length_flatMap, Surface.groups, runs_flatMap_methods, Surface.size]
  size := h.length_eq
  isEmpty := s.isEmpty_iff

theorem runs_append {ms rest : List Method} {name : String} (hms : ms ≠ [])
    (hname : ∀ m ∈ ms, m.namespaceName = name) (hrest : ∀ g ∈ (runs rest).head?, g.name ≠ name) :
    runs (ms ++ rest) = ⟨name, ms⟩ :: runs rest := by
  induction ms with
  | nil => exact absurd rfl hms
  | cons m ms ih =>
    have hm : m.namespaceName = name := hname m List.mem_cons_self
    cases ms with
    | nil =>
      rw [List.singleton_append, runs]
      cases hr : runs rest with
      | nil => rw [hm]
      | cons g gs =>
        have hg : g.name ≠ name := hrest g (by rw [hr]; rfl)
        dsimp only
        rw [hm, if_neg hg]
    | cons m' ms =>
      have hrun := ih (List.cons_ne_nil _ _) fun x hx => hname x (List.mem_cons_of_mem _ hx)
      rw [List.cons_append, runs, hrun]
      dsimp only
      rw [if_pos hm.symm]

/-- The groups of a list are the only ones that hold its methods in order, each group some methods
of its own namespace, under increasing names. -/
theorem runs_flatMap {gs : List Group} (hordered : (gs.map Group.name).Pairwise (· < ·))
    (hgs : ∀ g ∈ gs, g.methods ≠ [] ∧ ∀ m ∈ g.methods, m.namespaceName = g.name) :
    runs (gs.flatMap Group.methods) = gs := by
  induction gs with
  | nil => rfl
  | cons g gs ih =>
    obtain ⟨hfirst, hordered⟩ := List.pairwise_cons.mp hordered
    have hrest := ih hordered fun g hg => hgs g (List.mem_cons_of_mem _ hg)
    obtain ⟨hne, hname⟩ := hgs g List.mem_cons_self
    rw [List.flatMap_cons, runs_append hne hname, hrest]
    intro h hh
    rw [hrest] at hh
    have hlt := hfirst h.name (List.mem_map_of_mem (List.mem_of_mem_head? hh))
    intro he
    exact String.lt_irrefl _ (he ▸ hlt)

end Surface

structure Shelf where
  name : String
  methods : Std.ExtTreeMap String Method

abbrev Catalogue := Std.ExtTreeMap String Shelf

def Shelf.toGroup (h : Shelf) : Group :=
  ⟨h.name, h.methods.toList.map Prod.snd⟩

namespace Catalogue

/-- Add a method. The shelf of its namespace is set up before the method is looked for. -/
def enter (cat : Catalogue) (m : Method) : Except Failure Unit × Catalogue :=
  let cat := cat.insertIfNew m.namespaceName ⟨m.namespaceName, ∅⟩
  let h := cat.getD m.namespaceName ⟨m.namespaceName, ∅⟩
  match h.methods[m.name]? with
  | some first => (.error (.duplicateMethod first m), cat)
  | none => (.ok (), cat.insert m.namespaceName { h with methods := h.methods.insert m.name m })

/-- Add methods one after the other, and go on behind those that cannot be added. -/
def enterEach (cat : Catalogue) (ms : List Method) : Catalogue :=
  ms.foldl (fun cat m => (cat.enter m).2) cat

def groups (cat : Catalogue) : List Group :=
  cat.toList.map fun e => e.2.toGroup

/-- The catalogue has each method of a surface in its place: every shelf stands under its own name
and is not empty, and every method stands under its namespace and its name. -/
structure Shows (cat : Catalogue) (s : Surface) : Prop where
  shelf : ∀ (name : String) (h : Shelf), cat[name]? = some h → h.name = name ∧ h.methods ≠ ∅
  stored : ∀ (name : String) (h : Shelf) (key : String) (m : Method), cat[name]? = some h →
    h.methods[key]? = some m → m.namespaceName = name ∧ m.name = key
  mem_iff : ∀ m, m ∈ s.methods ↔
    ∃ h : Shelf, cat[m.namespaceName]? = some h ∧ h.methods[m.name]? = some m

theorem shows_empty : Shows ∅ .empty where
  shelf := by simp
  stored := by simp
  mem_iff m := by simp [Surface.empty]

variable {cat : Catalogue} {s : Surface} {m : Method}

theorem enter_of_taken {h : Shelf} {x : Method} (hc : cat[m.namespaceName]? = some h)
    (hx : h.methods[m.name]? = some x) : cat.enter m = (.error (.duplicateMethod x m), cat) := by
  have hmem : m.namespaceName ∈ cat := by
    rw [Std.ExtTreeMap.mem_iff_isSome_getElem?, hc]
    rfl
  have hopen : cat.insertIfNew m.namespaceName ⟨m.namespaceName, ∅⟩ = cat := by
    refine Std.ExtTreeMap.ext_getElem? fun name => ?_
    rw [Std.ExtTreeMap.getElem?_insertIfNew, if_neg fun h => h.2 hmem]
  have hshelf : cat.getD m.namespaceName ⟨m.namespaceName, ∅⟩ = h := by
    rw [Std.ExtTreeMap.getD_eq_getD_getElem?, hc]
    rfl
  simp only [enter, hopen, hshelf, hx]

theorem enter_of_free {h : Shelf} (hc : cat[m.namespaceName]?.getD ⟨m.namespaceName, ∅⟩ = h)
    (hx : h.methods[m.name]? = none) : ∃ cat', cat.enter m = (.ok (), cat') ∧ ∀ name : String,
      cat'[name]? = if m.namespaceName = name then
        some { h with methods := h.methods.insert m.name m } else cat[name]? := by
  have hshelf : (cat.insertIfNew m.namespaceName ⟨m.namespaceName, ∅⟩).getD m.namespaceName
      ⟨m.namespaceName, ∅⟩ = h := by
    rw [Std.ExtTreeMap.getD_eq_getD_getElem?, Std.ExtTreeMap.getElem?_insertIfNew, ← hc]
    by_cases hmem : m.namespaceName ∈ cat
    · simp [hmem]
    · rw [Std.ExtTreeMap.getElem?_eq_none hmem]
      simp [hmem]
  refine ⟨(cat.insertIfNew m.namespaceName ⟨m.namespaceName, ∅⟩).insert m.namespaceName
    { h with methods := h.methods.insert m.name m }, by simp only [enter, hshelf, hx], fun name => ?_⟩
  simp only [Std.ExtTreeMap.getElem?_insert, Std.ExtTreeMap.getElem?_insertIfNew,
    Std.LawfulEqOrd.compare_eq_iff_eq]
  by_cases hname : m.namespaceName = name
  · rw [if_pos hname, if_pos hname]
  · rw [if_neg hname, if_neg hname, if_neg fun h => hname h.1]

/-- The methods on a shelf, also on one that has still to be set up, are those of the namespace. -/
theorem Shows.shelf_methods (hc : cat.Shows s) {name : String} {h : Shelf}
    (hh : cat[name]?.getD ⟨name, ∅⟩ = h) : h.name = name ∧
      ∀ (key : String) x, h.methods[key]? = some x ↔ x ∈ s.methods ∧ x.place = (name, key) := by
  cases hshelf : cat[name]? with
  | none =>
    rw [hshelf] at hh
    obtain rfl : (⟨name, ∅⟩ : Shelf) = h := hh
    refine ⟨rfl, fun key x => ⟨fun hx => by simp at hx, ?_⟩⟩
    rintro ⟨hx, hplace⟩
    obtain ⟨h, hshelf', -⟩ := (hc.mem_iff x).mp hx
    rw [(Prod.mk.inj hplace).1, hshelf] at hshelf'
    cases hshelf'
  | some h' =>
    rw [hshelf] at hh
    obtain rfl : h' = h := hh
    refine ⟨(hc.shelf name h' hshelf).1, fun key x => ⟨fun hx => ?_, ?_⟩⟩
    · obtain ⟨rfl, rfl⟩ := hc.stored name h' key x hshelf hx
      exact ⟨(hc.mem_iff x).mpr ⟨h', hshelf, hx⟩, rfl⟩
    · rintro ⟨hx, hplace⟩
      obtain ⟨hname, hkey⟩ := Prod.mk.inj hplace
      obtain ⟨g, hg, hfound⟩ := (hc.mem_iff x).mp hx
      rw [hname, hshelf] at hg
      obtain rfl := Option.some.inj hg
      rwa [← hkey]

/-- A method whose place is free is put on the shelf of its namespace, beside the methods there. -/
theorem Shows.insert_methods {h : Shelf} (hc : cat.Shows s)
    (hfree : ∀ x ∈ s.methods, x.place ≠ m.place)
    (hh : cat[m.namespaceName]?.getD ⟨m.namespaceName, ∅⟩ = h) (key : String) (x : Method) :
    (h.methods.insert m.name m)[key]? = some x ↔
      (x = m ∨ x ∈ s.methods) ∧ x.place = (m.namespaceName, key) := by
  obtain ⟨-, hshelf⟩ := hc.shelf_methods hh
  simp only [Std.ExtTreeMap.getElem?_insert, Std.LawfulEqOrd.compare_eq_iff_eq]
  split_ifs with hkey
  · have hplace : m.place = (m.namespaceName, key) := Prod.mk_inj.mpr ⟨rfl, hkey⟩
    rw [Option.some.injEq]
    constructor
    · rintro rfl
      exact ⟨.inl rfl, hplace⟩
    · rintro ⟨rfl | hx, hxplace⟩
      · rfl
      · exact absurd (hxplace.trans hplace.symm) (hfree x hx)
  · rw [hshelf]
    constructor
    · exact fun hx => ⟨.inr hx.1, hx.2⟩
    · rintro ⟨rfl | hx, hplace⟩
      · exact absurd (Prod.mk.inj hplace).2 hkey
      · exact ⟨hx, hplace⟩

theorem Shows.put {cat' : Catalogue} {t : Surface} {h : Shelf} (hc : cat.Shows s)
    (hfree : ∀ x ∈ s.methods, x.place ≠ m.place)
    (ht : ∀ x, x ∈ t.methods ↔ x = m ∨ x ∈ s.methods)
    (hh : cat[m.namespaceName]?.getD ⟨m.namespaceName, ∅⟩ = h)
    (hc' : ∀ name : String, cat'[name]? = if m.namespaceName = name then
      some { h with methods := h.methods.insert m.name m } else cat[name]?) : cat'.Shows t := by
  have hstored := hc.insert_methods hfree hh
  -- Only the shelf of the method's namespace is another one than before.
  refine ⟨fun name g hg => ?_, fun name g key x hg hx => ?_, fun x => ?_⟩
  · rw [hc'] at hg
    split_ifs at hg with hsame
    · obtain rfl := Option.some.inj hg
      exact ⟨(hc.shelf_methods hh).1.trans hsame, Std.ExtTreeMap.insert_ne_empty⟩
    · exact hc.shelf name g hg
  · rw [hc'] at hg
    split_ifs at hg with hsame
    · obtain rfl := Option.some.inj hg
      obtain ⟨hname, hkey⟩ := Prod.mk.inj ((hstored key x).mp hx).2
      exact ⟨hname.trans hsame, hkey⟩
    · exact hc.stored name g key x hg hx
  · rw [ht, hc']
    split_ifs with hsame
    · have hplace : x.place = (m.namespaceName, x.name) := Prod.mk_inj.mpr ⟨hsame.symm, rfl⟩
      have hx := hstored x.name x
      rw [and_iff_left hplace] at hx
      rw [← hx]
      simp only [Option.some.injEq, exists_eq_left']
    · have hne : x ≠ m := fun he => hsame (he ▸ rfl)
      rw [← hc.mem_iff, or_iff_right hne]

/-- A catalogue that shows a surface answers as the surface does, shows it again when a method was
added, and is left as it was when none could be. -/
theorem Shows.enter (hc : cat.Shows s) (m : Method) :
    (∃ failure, s.insert m = .error failure ∧ cat.enter m = (.error failure, cat)) ∨
      ∃ t cat', s.insert m = .ok t ∧ cat.enter m = (.ok (), cat') ∧ cat'.Shows t := by
  rcases Surface.insert_cases s m with ⟨x, hx, hplace, hinsert⟩ | ⟨hfree, t, hinsert, hmethods⟩
  · obtain ⟨hname, hkey⟩ := Prod.mk.inj hplace
    obtain ⟨h, hshelf, hfound⟩ := (hc.mem_iff x).mp hx
    rw [hname] at hshelf
    rw [hkey] at hfound
    exact .inl ⟨_, hinsert, enter_of_taken hshelf hfound⟩
  · have hnone : (cat[m.namespaceName]?.getD ⟨m.namespaceName, ∅⟩).methods[m.name]? = none := by
      by_contra hsome
      obtain ⟨x, hx⟩ := Option.ne_none_iff_exists'.mp hsome
      obtain ⟨hx, hplace⟩ := ((hc.shelf_methods rfl).2 m.name x).mp hx
      exact hfree x hx hplace
    obtain ⟨cat', henter, hc'⟩ := enter_of_free rfl hnone
    exact .inr ⟨t, cat', hinsert, henter,
      hc.put hfree (fun x => hmethods ▸ Surface.mem_place) rfl hc'⟩

theorem Shows.enter_fst (hc : cat.Shows s) (m : Method) :
    (cat.enter m).1 = (s.insert m).map fun _ => () := by
  rcases hc.enter m with ⟨failure, hinsert, henter⟩ | ⟨t, cat', hinsert, henter, -⟩
  · rw [hinsert, henter]
    rfl
  · rw [hinsert, henter]
    rfl

theorem Shows.enter_snd_of_error (hc : cat.Shows s) {failure : Failure}
    (h : s.insert m = .error failure) : (cat.enter m).2 = cat := by
  rcases hc.enter m with ⟨failure', -, henter⟩ | ⟨t, cat', hinsert, -, -⟩
  · rw [henter]
  · rw [h] at hinsert
    cases hinsert

theorem Shows.enterEach (hc : cat.Shows s) (ms : List Method) :
    (cat.enterEach ms).Shows (s.insertEach ms) := by
  induction ms generalizing cat s with
  | nil => exact hc
  | cons m ms ih =>
    rw [Catalogue.enterEach, Surface.insertEach, List.foldl_cons, List.foldl_cons]
    rcases hc.enter m with ⟨failure, hinsert, henter⟩ | ⟨t, cat', hinsert, henter, hc'⟩
    · rw [hinsert, henter]
      exact ih hc
    · rw [hinsert, henter]
      exact ih hc'

theorem mem_toGroup_iff {h : Shelf} :
    m ∈ h.toGroup.methods ↔ ∃ key : String, h.methods[key]? = some m := by
  simp only [Shelf.toGroup, List.mem_map, Prod.exists, exists_eq_right,
    Std.ExtTreeMap.mem_toList_iff_getElem?_eq_some]

theorem mem_groups_iff {g : Group} :
    g ∈ cat.groups ↔ ∃ name : String, ∃ h, cat[name]? = some h ∧ h.toGroup = g := by
  simp only [groups, List.mem_map, Prod.exists, Std.ExtTreeMap.mem_toList_iff_getElem?_eq_some]

theorem Shows.groups_increasing (hc : cat.Shows s) :
    (cat.groups.map Group.name).Pairwise (· < ·) := by
  rw [groups, List.map_map, List.pairwise_map]
  refine Std.ExtTreeMap.ordered_keys_toList.imp_of_mem fun {a b} ha hb hab => ?_
  have hname : ∀ e ∈ cat.toList, e.2.name = e.1 := fun e he =>
    (hc.shelf e.1 e.2 (Std.ExtTreeMap.mem_toList_iff_getElem?_eq_some.mp he)).1
  change a.2.name < b.2.name
  rw [hname a ha, hname b hb]
  exact compareOfLessAndEq_eq_lt.mp hab

theorem Shows.methods_increasing (hc : cat.Shows s) {name : String} {h : Shelf}
    (hh : cat[name]? = some h) : h.toGroup.methods.Pairwise Method.Before := by
  rw [Shelf.toGroup, List.pairwise_map]
  refine Std.ExtTreeMap.ordered_keys_toList.imp_of_mem fun {a b} ha hb hab => ?_
  obtain ⟨hans, haname⟩ :=
    hc.stored name h a.1 a.2 hh (Std.ExtTreeMap.mem_toList_iff_getElem?_eq_some.mp ha)
  obtain ⟨hbns, hbname⟩ :=
    hc.stored name h b.1 b.2 hh (Std.ExtTreeMap.mem_toList_iff_getElem?_eq_some.mp hb)
  refine .inr ⟨hans.trans hbns.symm, ?_⟩
  rw [haname, hbname]
  exact compareOfLessAndEq_eq_lt.mp hab

theorem Shows.groups_eq (hc : cat.Shows s) : cat.groups = s.groups := by
  have hname : ∀ g ∈ cat.groups, ∀ m ∈ g.methods, m.namespaceName = g.name := by
    intro g hg m hm
    obtain ⟨name, h, hh, rfl⟩ := mem_groups_iff.mp hg
    obtain ⟨key, hkey⟩ := mem_toGroup_iff.mp hm
    exact (hc.stored name h key m hh hkey).1.trans (hc.shelf name h hh).1.symm
  have hne : ∀ g ∈ cat.groups, g.methods ≠ [] := by
    intro g hg
    obtain ⟨name, h, hh, rfl⟩ := mem_groups_iff.mp hg
    have hmethods := (hc.shelf name h hh).2
    simpa [Shelf.toGroup] using hmethods
  have hincreasing : (cat.groups.flatMap Group.methods).Pairwise Method.Before := by
    refine List.pairwise_flatMap.mpr ⟨fun g hg => ?_, ?_⟩
    · obtain ⟨name, h, hh, rfl⟩ := mem_groups_iff.mp hg
      exact hc.methods_increasing hh
    · refine (List.pairwise_map.mp hc.groups_increasing).imp_of_mem fun {a b} ha hb hab => ?_
      intro x hx y hy
      left
      rwa [hname a ha x hx, hname b hb y hy]
  have hflat : cat.groups.flatMap Group.methods = s.methods := by
    refine congrArg Surface.methods (Surface.eq_of_mem_iff (s := ⟨_, hincreasing⟩) fun m => ?_)
    rw [hc.mem_iff, List.mem_flatMap]
    constructor
    · rintro ⟨g, hg, hm⟩
      obtain ⟨name, h, hh, rfl⟩ := mem_groups_iff.mp hg
      obtain ⟨key, hkey⟩ := mem_toGroup_iff.mp hm
      obtain ⟨rfl, rfl⟩ := hc.stored name h key m hh hkey
      exact ⟨h, hh, hkey⟩
    · rintro ⟨h, hh, hm⟩
      exact ⟨_, mem_groups_iff.mpr ⟨_, h, hh, rfl⟩, mem_toGroup_iff.mpr ⟨_, hm⟩⟩
  rw [Surface.groups, ← hflat]
  exact (Surface.runs_flatMap hc.groups_increasing fun g hg => ⟨hne g hg, hname g hg⟩).symm

end Catalogue

/-- After any insertions a surface holds exactly the methods that were accepted. A further insertion
fails exactly on a method whose place one of them has, names both, and changes nothing. A catalogue
has the same groups, and gives the same answers. -/
theorem Surface.insertions_recorded (ms : List Method) :
    let s := Surface.empty.insertEach ms
    let cat := Catalogue.enterEach ∅ ms
    s.Holds (Surface.empty.accepted ms) ∧ cat.Shows s ∧ cat.groups = s.groups ∧ ∀ m,
      (∀ failure, s.insert m = .error failure ↔ ∃ x ∈ Surface.empty.accepted ms,
        x.SameKey m ∧ failure = .duplicateMethod x m) ∧
      (cat.enter m).1 = (s.insert m).map (fun _ => ()) ∧
      ∀ failure, s.insert m = .error failure →
        Surface.empty.insertEach (ms ++ [m]) = s ∧ (cat.enter m).2 = cat := by
  intro s cat
  have hperm : s.methods.Perm (Surface.empty.accepted ms) := by
    have h := Surface.empty.insertEach_perm ms
    rwa [show Surface.empty.methods = [] from rfl, List.append_nil] at h
  have hshows : cat.Shows s := Catalogue.shows_empty.enterEach ms
  refine ⟨Surface.holds_of_perm hperm, hshows, hshows.groups_eq, fun m => ⟨fun failure => ?_,
    hshows.enter_fst m, fun failure hfailure => ⟨?_, hshows.enter_snd_of_error hfailure⟩⟩⟩
  · rw [Surface.insert_eq_error_iff]
    simp only [hperm.mem_iff]
  · rw [Surface.insertEach, List.foldl_append]
    change (s.insert m).toOption.getD s = s
    rw [hfailure]
    rfl

end CallBridge
