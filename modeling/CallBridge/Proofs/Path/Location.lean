import CallBridge.Proofs.Path.Components

/-! # Paths of locations

A location of a tree is written as one absolute path, and that path stands for the location again.
Every path that is made absolute from an absolute base is such a path.
-/
namespace CallBridge

namespace Path

/-- The path that leads from the root to a location. -/
def ofLocation (l : Location) : Path :=
  ofComponents (.root :: l.map .normal)

theorem ofComponents_append_singleton (cs : List Component) (c : Component) :
    ofComponents (cs ++ [c]) = (ofComponents cs).push c := by
  simp [ofComponents]

theorem ofLocation_append_singleton (l : Location) (n : String) :
    ofLocation (l ++ [n]) = (ofLocation l).push (.normal n) := by
  rw [ofLocation, List.map_append, ← List.cons_append]
  exact ofComponents_append_singleton _ _

section Named
variable {l m : Location} (hl : ∀ n ∈ l, isFileName n = true)
include hl

theorem isAbsolute_ofLocation : (ofLocation l).isAbsolute = true := by
  induction l using List.reverseRecOn with
  | nil => rfl
  | append_singleton l n ih =>
    have habsolute := ih fun m hm => hl m (by simp [hm])
    rw [ofLocation_append_singleton, push_normal, isAbsolute_join (text_ne_of_isAbsolute habsolute)]
    · exact habsolute
    · exact isAbsolute_of_isFileName (hl n (by simp))

theorem text_ofLocation_ne : (ofLocation l).text ≠ "" :=
  text_ne_of_isAbsolute (isAbsolute_ofLocation hl)

theorem components_ofLocation : (ofLocation l).components = .root :: l.map .normal := by
  induction l using List.reverseRecOn with
  | nil => rfl
  | append_singleton l n ih =>
    have hinit : ∀ m ∈ l, isFileName m = true := fun m hm => hl m (by simp [hm])
    rw [ofLocation_append_singleton, components_push _ (.inr ⟨n, hl n (by simp), rfl⟩),
      ih hinit]
    simp

theorem location_ofLocation : (ofLocation l).location = l := by
  rw [location, components_ofLocation hl, List.filterMap_cons, List.filterMap_map]
  exact List.filterMap_some

theorem namesDirectory_ofLocation (hne : l ≠ []) : (ofLocation l).namesDirectory = false := by
  rcases List.eq_nil_or_concat' l with h | ⟨init, n, rfl⟩
  · exact absurd h hne
  · rw [ofLocation_append_singleton]
    exact namesDirectory_push (text_ofLocation_ne fun m hm => hl m (by simp [hm])) (hl n (by simp))

theorem same_ofLocation_iff (hm : ∀ n ∈ m, isFileName n = true) :
    (ofLocation l).same (ofLocation m) = true ↔ l = m := by
  rw [same, beq_iff_eq, components_ofLocation hl, components_ofLocation hm]
  simp [List.map_inj_right]

theorem parent?_ofLocation (hne : l ≠ []) :
    (ofLocation l).parent? = some (ofLocation l.dropLast) := by
  rcases List.eq_nil_or_concat' l with h | ⟨init, n, rfl⟩
  · exact absurd h hne
  · have hcomponents : (ofLocation (init ++ [n])).components =
        (Component.root :: init.map .normal) ++ [.normal n] := by
      rw [components_ofLocation hl, List.map_append]
      rfl
    rw [parent?, hcomponents, List.getLast?_concat, List.dropLast_concat, List.dropLast_concat]
    rfl

theorem extend_ofLocation (rest : Location) :
    (ofLocation l).extend rest = ofLocation (l ++ rest) := by
  rw [extend, components_ofLocation hl, ofLocation, List.map_append]
  rfl

end Named

theorem exists_normalize_eq {p : Path} (hp : p.isAbsolute = true) :
    ∃ l : Location, (∀ n ∈ l, isFileName n = true) ∧ p.normalize = ofLocation l := by
  have hresolved := resolved_resolve p
  rw [hp] at hresolved
  rw [normalize]
  generalize resolve p.components = cs at hresolved ⊢
  cases hresolved with
  | rooted hl => exact ⟨_, hl, rfl⟩

structure Located (p : Path) : Prop where
  named : ∀ n ∈ p.location, isFileName n = true
  eq : p = ofLocation p.location

theorem located_ofLocation {l : Location} (hl : ∀ n ∈ l, isFileName n = true) :
    (ofLocation l).Located := by
  refine ⟨?_, ?_⟩
  · rw [location_ofLocation hl]
    exact hl
  · rw [location_ofLocation hl]

theorem Located.components_eq {p : Path} (hp : p.Located) :
    p.components = .root :: p.location.map .normal := by
  conv_lhs => rw [hp.eq, components_ofLocation hp.named]

theorem Located.isAbsolute {p : Path} (hp : p.Located) : p.isAbsolute = true := by
  rw [hp.eq]
  exact isAbsolute_ofLocation hp.named

theorem Located.same_iff {p q : Path} (hp : p.Located) (hq : q.Located) :
    p.same q = true ↔ p.location = q.location := by
  rw [hp.eq, hq.eq, same_ofLocation_iff hp.named hq.named, location_ofLocation hp.named,
    location_ofLocation hq.named]

theorem located_normalize {p : Path} (hp : p.isAbsolute = true) : p.normalize.Located := by
  obtain ⟨l, hl, h⟩ := exists_normalize_eq hp
  rw [h]
  exact located_ofLocation hl

theorem located_absolutize {base : Path} (hbase : base.isAbsolute = true) (p : Path) :
    (absolutize base p).Located := by
  unfold absolutize
  split_ifs with hp
  · exact located_normalize hp
  · rw [← isAbsolute_join (text_ne_of_isAbsolute hbase) (by simpa using hp)] at hbase
    exact located_normalize hbase

theorem resolve_names (l : Location) : resolve (.root :: l.map .normal) = .root :: l.map .normal := by
  rw [resolve, List.foldl_cons, foldl_names]
  simp [resolveStep]

theorem Located.normalize_eq {p : Path} (hp : p.Located) : p.normalize = p := by
  rw [normalize, hp.components_eq, resolve_names]
  exact hp.eq.symm

/-- The paths of locations are the paths that are absolute and normalized. -/
theorem located_iff {p : Path} : p.Located ↔ p.isAbsolute = true ∧ p.normalize = p := by
  constructor
  · exact fun hp => ⟨hp.isAbsolute, hp.normalize_eq⟩
  · rintro ⟨habsolute, hnormalize⟩
    rw [← hnormalize]
    exact located_normalize habsolute

theorem Located.eq_of_same {p q : Path} (hp : p.Located) (hq : q.Located) (h : p.same q = true) :
    p = q := by
  have hlocation : p.location = q.location := (hp.same_iff hq).mp h
  calc p = ofLocation p.location := hp.eq
    _ = ofLocation q.location := by rw [hlocation]
    _ = q := hq.eq.symm

/-- A relative path without steps up leads from a location to one below it. -/
theorem Located.absolutize_eq {base p : Path} (hbase : base.Located) (hp : p.isAbsolute = false)
    {l : Location}
    (hl : (Text.splitAt '/' p.text.toList).filterMap (component? false) = l.map .normal) :
    absolutize base p = ofLocation (base.location ++ l) := by
  have habsolute := hbase.isAbsolute
  have hcomponents : (base.join p).components = .root :: (base.location ++ l).map .normal := by
    rw [components_join (text_ne_of_isAbsolute habsolute) hp, hl, List.map_append,
      hbase.components_eq]
    rfl
  rw [absolutize, if_neg (by simp [hp]), normalize, hcomponents, resolve_names]
  rfl

end Path

end CallBridge
